import ContentTypes.Json.Basic

namespace ContentTypes

def digitValue (c : Char) : Nat := c.toNat - '0'.toNat

def isDigit (c : Char) : Bool := '0' ≤ c && c ≤ '9'

-- The value of a digit of base sixteen in either case.
def hexValue? (c : Char) : Option Nat :=
  if isDigit c then some (digitValue c)
  else if 'a' ≤ c && c ≤ 'f' then some (c.toNat - 'a'.toNat + 10)
  else if 'A' ≤ c && c ≤ 'F' then some (c.toNat - 'A'.toNat + 10)
  else none

def hexNumber? (digits : List Char) : Option Nat :=
  digits.foldlM (fun sum c => (hexValue? c).map (16 * sum + ·)) 0

namespace Number

-- Takes digits into a significand as long as 64 bits hold it.
-- Also tells how many digits were left out.
def gather (significand : Nat) : List Nat → Nat × Nat
  | [] => (significand, 0)
  | digit :: rest =>
      if significand * 10 + digit < UInt64.size then gather (significand * 10 + digit) rest
      else (significand, rest.length + 1)

def powerOfTen (exponent : Nat) : Float := Float.ofScientific 1 false exponent

-- Division by a power of ten, in steps that a fraction can hold.
def shrink (value : Float) (power : Nat) : Float :=
  if power ≤ 308 then value / powerOfTen power
  else if value == 0 then value
  else shrink (value / powerOfTen 308) (power - 308)
  termination_by power

-- One multiplication or division takes the significand to its scale, so the last bit may be off.
-- There is no infinite number.
def scaled? (significand : Nat) (exponent : Int) : Option Float :=
  let value := significand.toUInt64.toFloat
  if exponent < 0 then some (shrink value exponent.natAbs)
  else if 308 < exponent then if value == 0 then some value else none
  else
    let product := value * powerOfTen exponent.toNat
    if product.isInf then none else some product

-- What stands in a number literal, digit by digit.
structure Literal where
  negative : Bool
  whole : List Nat
  fraction : Option (List Nat)
  exponent : Option Int
  deriving DecidableEq, Repr

def Literal.value? (literal : Literal) : Option Number :=
  let whole := gather 0 literal.whole
  match literal.fraction, literal.exponent, whole.2 with
  | none, none, 0 =>
      if literal.negative then
        if whole.1 = 0 || -Int.ofNat whole.1 < int64Min then some (.real (-whole.1.toUInt64.toFloat).toBits)
        else some (.int (-whole.1))
      else some (.int whole.1)
  | _, _, _ =>
      let places := literal.fraction.getD []
      let all := gather whole.1 places
      let taken := places.length - all.2
      let scale := Int.ofNat whole.2 - Int.ofNat taken + literal.exponent.getD 0
      (scaled? all.1 scale).map fun value =>
        .real (if literal.negative then -value else value).toBits

def digits (chars : List Char) : List Nat × List Char :=
  ((chars.takeWhile isDigit).map digitValue, chars.dropWhile isDigit)

-- At least one digit.
def someDigits? (chars : List Char) : Option (List Nat × List Char) :=
  if (digits chars).1.isEmpty then none else some (digits chars)

def fraction? : List Char → Option (Option (List Nat) × List Char)
  | '.' :: rest => (someDigits? rest).map fun (places, rest) => (some places, rest)
  | chars => some (none, chars)

def exponentSign : List Char → Bool × List Char
  | '+' :: rest => (false, rest)
  | '-' :: rest => (true, rest)
  | chars => (false, chars)

def exponent? : List Char → Option (Option Int × List Char)
  | c :: rest =>
      if c = 'e' || c = 'E' then
        (someDigits? (exponentSign rest).2).map fun (places, after) =>
          let size := Int.ofNat (places.foldl (fun sum digit => 10 * sum + digit) 0)
          (some (if (exponentSign rest).1 then -size else size), after)
      else some (none, c :: rest)
  | [] => some (none, [])

-- A zero in front stands alone.
def whole? (chars : List Char) : Option (List Nat × List Char) := do
  let (whole, rest) ← someDigits? chars
  if whole.head? = some 0 && whole.length != 1 then none else return (whole, rest)

def Literal.read? (chars : List Char) : Option (Literal × List Char) := do
  let negative := chars.head? = some '-'
  let (whole, rest) ← whole? (if negative then chars.tail else chars)
  let (fraction, rest) ← fraction? rest
  let (exponent, rest) ← exponent? rest
  return (⟨negative, whole, fraction, exponent⟩, rest)

end Number

namespace Json

-- A piece of a quoted text: a character, or the number of a UTF-16 unit given by an escape.
inductive Piece where
  | char (c : Char)
  | unit (n : Nat)
  deriving DecidableEq, Repr

-- The character that a short escape stands for.
def shortEscape? : Char → Option Char
  | '"' => some '"'
  | '\\' => some '\\'
  | '/' => some '/'
  | 'b' => some '\x08'
  | 'f' => some '\x0c'
  | 'n' => some '\n'
  | 'r' => some '\r'
  | 't' => some '\t'
  | _ => none

-- The pieces up to the closing quote, and what follows it.
def pieces? : List Char → Option (List Piece × List Char)
  | [] => none
  | '"' :: rest => some ([], rest)
  | '\\' :: 'u' :: a :: b :: c :: d :: rest => do
      let unit ← hexNumber? [a, b, c, d]
      let (pieces, rest) ← pieces? rest
      return (.unit unit :: pieces, rest)
  | '\\' :: e :: rest => do
      let c ← shortEscape? e
      let (pieces, rest) ← pieces? rest
      return (.char c :: pieces, rest)
  | c :: rest =>
      if c.toNat < 32 || c = '\\' then none
      else do
        let (pieces, rest) ← pieces? rest
        return (.char c :: pieces, rest)

def isHighSurrogate (n : Nat) : Bool := 0xd800 ≤ n && n < 0xdc00

def isLowSurrogate (n : Nat) : Bool := 0xdc00 ≤ n && n < 0xe000

-- Two surrogates in a row make one character. One alone makes none.
def joinPieces? : List Piece → Option (List Char)
  | [] => some []
  | .char c :: rest => (joinPieces? rest).map (c :: ·)
  | .unit high :: .unit low :: rest =>
      if isHighSurrogate high then
        if isLowSurrogate low then
          let c := Char.ofNat (0x10000 + (high - 0xd800) * 0x400 + (low - 0xdc00))
          (joinPieces? rest).map (c :: ·)
        else none
      else if isLowSurrogate high then none
      else (joinPieces? (.unit low :: rest)).map (Char.ofNat high :: ·)
  | .unit n :: rest =>
      if isHighSurrogate n || isLowSurrogate n then none
      else (joinPieces? rest).map (Char.ofNat n :: ·)

-- Reads a quoted text whose opening quote is behind us. One that is well formed may still have no
-- value.
def unquote? (chars : List Char) : Option (Option String × List Char) :=
  (pieces? chars).map fun (pieces, rest) => ((joinPieces? pieces).map String.ofList, rest)

end Json

end ContentTypes
