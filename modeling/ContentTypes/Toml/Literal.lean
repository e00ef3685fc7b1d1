import ContentTypes.Json.Literal
import ContentTypes.Toml.Basic

namespace ContentTypes.Toml

-- A parser takes what it reads off the front of the text. Where it fails the whole text is refused,
-- or another parser is tried at the same place.
abbrev Parser := StateT (List Char) Option

def char (accept : Char → Bool) : Parser Char
  | c :: rest => if accept c then some (c, rest) else none
  | [] => none

def exactly (c : Char) : Parser Unit := do let _ ← char (· = c)

def word : List Char → Parser Unit
  | [] => return ()
  | c :: rest => do
      exactly c
      word rest

def charsWhile (accept : Char → Bool) : Parser (List Char) := fun chars =>
  some (chars.takeWhile accept, chars.dropWhile accept)

def guarded {α : Type} (accept : α → Bool) (parser : Parser α) : Parser α := do
  let value ← parser
  if accept value then return value else failure

def isBlank (c : Char) : Bool := c = ' ' || c = '\t'

def blanks : Parser Unit := do let _ ← charsWhile isBlank

-- What stands for itself in any text: neither a control character nor a line end.
def isPlainChar (c : Char) : Bool := c = '\t' || (32 ≤ c.toNat && c.toNat ≠ 127)

def isBasicChar (c : Char) : Bool := isPlainChar c && c ≠ '"' && c ≠ '\\'

def isLiteralChar (c : Char) : Bool := isPlainChar c && c ≠ '\x27'

def shortEscape? : Char → Option Char
  | 'b' => some '\x08'
  | 't' => some '\t'
  | 'n' => some '\n'
  | 'f' => some '\x0c'
  | 'r' => some '\r'
  | '"' => some '"'
  | '\\' => some '\\'
  | _ => none

-- The character with a number that is written in base sixteen.
def numberedChar? (digits : List Char) : Option Char := do
  let n ← hexNumber? digits
  if n.isValidChar then some (Char.ofNat n) else none

-- The text up to the closing quote.
def basicChars : List Char → Option (List Char × List Char)
  | [] => none
  | '"' :: rest => some ([], rest)
  | '\\' :: 'u' :: a :: b :: c :: d :: rest => do
      let one ← numberedChar? [a, b, c, d]
      let (text, rest) ← basicChars rest
      return (one :: text, rest)
  | '\\' :: 'U' :: a :: b :: c :: d :: e :: f :: g :: h :: rest => do
      let one ← numberedChar? [a, b, c, d, e, f, g, h]
      let (text, rest) ← basicChars rest
      return (one :: text, rest)
  | '\\' :: e :: rest => do
      let one ← shortEscape? e
      let (text, rest) ← basicChars rest
      return (one :: text, rest)
  | c :: rest =>
      if isBasicChar c then do
        let (text, rest) ← basicChars rest
        return (c :: text, rest)
      else none

def startsLine : List Char → Bool
  | '\n' :: _ => true
  | '\r' :: '\n' :: _ => true
  | _ => false

-- Whether three or more quotes come first, which close a long text. Two of the quotes before the
-- last three still belong to it.
private def closing (quote : Char) (chars : List Char) : Option (List Char × List Char) :=
  let run := (chars.takeWhile (· = quote)).length
  if run < 3 then none
  else
    let kept := min (run - 3) 2
    some (List.replicate kept quote, chars.drop (kept + 3))

-- The text up to three closing quotes. A backslash at the end of a line joins it to the next
-- character that is neither a blank nor a line end; `joining` holds on the way there.
def longBasicChars (joining : Bool) : List Char → Option (List Char × List Char)
  | [] => none
  | '\r' :: '\n' :: rest =>
      if joining then longBasicChars true rest
      else do
        let (text, rest) ← longBasicChars false rest
        return ('\n' :: text, rest)
  | '\n' :: rest =>
      if joining then longBasicChars true rest
      else do
        let (text, rest) ← longBasicChars false rest
        return ('\n' :: text, rest)
  | '\\' :: 'u' :: a :: b :: c :: d :: rest => do
      let one ← numberedChar? [a, b, c, d]
      let (text, rest) ← longBasicChars false rest
      return (one :: text, rest)
  | '\\' :: 'U' :: a :: b :: c :: d :: e :: f :: g :: h :: rest => do
      let one ← numberedChar? [a, b, c, d, e, f, g, h]
      let (text, rest) ← longBasicChars false rest
      return (one :: text, rest)
  | '\\' :: e :: rest =>
      if startsLine ((e :: rest).dropWhile isBlank) then longBasicChars true (e :: rest)
      else do
        let one ← shortEscape? e
        let (text, rest) ← longBasicChars false rest
        return (one :: text, rest)
  | c :: rest =>
      if joining && isBlank c then longBasicChars true rest
      else if c = '"' then
        match closing '"' (c :: rest) with
        | some found => some found
        | none => do
            let (text, rest) ← longBasicChars false rest
            return (c :: text, rest)
      else if isBasicChar c then do
        let (text, rest) ← longBasicChars false rest
        return (c :: text, rest)
      else none

-- The text up to three closing apostrophes.
def longLiteralChars : List Char → Option (List Char × List Char)
  | [] => none
  | '\r' :: '\n' :: rest => do
      let (text, rest) ← longLiteralChars rest
      return ('\n' :: text, rest)
  | c :: rest =>
      if c = '\x27' then
        match closing '\x27' (c :: rest) with
        | some found => some found
        | none => do
            let (text, rest) ← longLiteralChars rest
            return (c :: text, rest)
      else if c = '\n' || isLiteralChar c then do
        let (text, rest) ← longLiteralChars rest
        return (c :: text, rest)
      else none

private def dropLineEnd : List Char → List Char
  | '\n' :: rest => rest
  | '\r' :: '\n' :: rest => rest
  | chars => chars

-- A text between single quotes of either kind, as keys are written.
def shortText : Parser String
  | '"' :: rest => (basicChars rest).map fun (text, rest) => (String.ofList text, rest)
  | '\x27' :: rest =>
      match rest.dropWhile isLiteralChar with
      | '\x27' :: after => some (String.ofList (rest.takeWhile isLiteralChar), after)
      | _ => none
  | _ => none

-- A line end right after the opening quotes of a long text does not belong to it.
def text : Parser String
  | '"' :: '"' :: '"' :: rest =>
      (longBasicChars false (dropLineEnd rest)).map fun (text, rest) => (String.ofList text, rest)
  | '\x27' :: '\x27' :: '\x27' :: rest =>
      (longLiteralChars (dropLineEnd rest)).map fun (text, rest) => (String.ofList text, rest)
  | chars => shortText chars

-- Digits up to the first character that is none. An underscore may stand between two digits.
def underscored (accept : Char → Bool) : List Char → List Char × List Char
  | [] => ([], [])
  | '_' :: d :: rest =>
      if accept d then
        let (digits, rest) := underscored accept rest
        (d :: digits, rest)
      else ([], '_' :: d :: rest)
  | d :: rest =>
      if accept d then
        let (digits, rest) := underscored accept rest
        (d :: digits, rest)
      else ([], d :: rest)

def digits (accept : Char → Bool) : Parser (List Char) := do
  let first ← char accept
  let rest ← fun chars => some (underscored accept chars)
  return first :: rest

def sign : Parser Bool
  | '-' :: rest => some (true, rest)
  | '+' :: rest => some (false, rest)
  | chars => some (false, chars)

def valueIn (base : Nat) (digits : List Char) : Nat :=
  digits.foldl (fun sum c => base * sum + (hexValue? c).getD 0) 0

-- A zero in front stands alone.
def decimal : Parser (List Char) := fun chars =>
  match chars with
  | '0' :: rest => some (['0'], rest)
  | _ => digits isDigit chars

def integer64? (n : Int) : Option Toml :=
  if int64Min ≤ n && n ≤ int64Max then some (.int n) else none

private def integerIn (base : Nat) (accept : Char → Bool) : Parser Toml := do
  integer64? (valueIn base (← digits accept))

def integer : Parser Toml
  | '0' :: 'x' :: rest => integerIn 16 (fun c => (hexValue? c).isSome) rest
  | '0' :: 'o' :: rest => integerIn 8 (fun c => '0' ≤ c && c ≤ '7') rest
  | '0' :: 'b' :: rest => integerIn 2 (fun c => c = '0' || c = '1') rest
  | chars => (do
      let negative ← sign
      let size := Int.ofNat (valueIn 10 (← decimal))
      integer64? (if negative then -size else size)) chars

-- The fraction nearest to a decimal number. Far beyond its range no digit matters any more.
def nearest (significand : Nat) (exponent : Int) : Float :=
  let top := Int.ofNat (Nat.toDigits 10 significand).length + exponent
  if significand = 0 || top < -400 then 0
  else if 400 < top then 1 / 0
  else Float.ofScientific significand (exponent < 0) exponent.natAbs

private def fraction : Parser (List Char) := do
  exactly '.'
  digits isDigit

private def exponent : Parser Int := do
  let _ ← char fun c => c = 'e' || c = 'E'
  let negative ← sign
  let size := Int.ofNat (valueIn 10 (← digits isDigit))
  return if negative then -size else size

-- A number with a fraction, an exponent or both. It must not be infinite, unless it is negative.
def decimalFloat : Parser Toml := do
  let negative ← sign
  let whole ← decimal
  let places ← optional fraction
  let power ← optional exponent
  if places.isNone && power.isNone then failure
  let after := places.getD []
  let size := nearest (valueIn 10 (whole ++ after)) (power.getD 0 - Int.ofNat after.length)
  if size.isInf && !negative then failure
  return .float (if negative then -size else size).toBits

def specialFloat : Parser Toml := do
  let negative ← sign
  let size : Float ←
    (do word ['i', 'n', 'f']; return 1 / 0) <|> (do word ['n', 'a', 'n']; return 0 / 0)
  return .float (if negative then -size else size).toBits

def fixedDigits : Nat → Parser (List Char)
  | 0 => return []
  | n + 1 => do
      let first ← char isDigit
      let rest ← fixedDigits n
      return first :: rest

-- Two digits with a value between two bounds.
private def twoDigits (low high : Nat) : Parser (List Char) :=
  guarded (fun ds => low ≤ valueIn 10 ds && valueIn 10 ds ≤ high) (fixedDigits 2)

def isLeapYear (year : Nat) : Bool := year % 4 = 0 && (year % 100 ≠ 0 || year % 400 = 0)

def daysIn (year month : Nat) : Nat :=
  if month = 2 then if isLeapYear year then 29 else 28
  else if [4, 6, 9, 11].contains month then 30
  else 31

def date : Parser (List Char) := do
  let year ← fixedDigits 4
  exactly '-'
  let month ← twoDigits 1 12
  exactly '-'
  let day ← twoDigits 1 (daysIn (valueIn 10 year) (valueIn 10 month))
  return year ++ '-' :: month ++ '-' :: day

-- Nine places of a second are kept, without zeros at their end.
private def secondPlaces : Parser (List Char) := do
  exactly '.'
  let places ← guarded (!·.isEmpty) (charsWhile isDigit)
  let kept := ((places.take 9).reverse.dropWhile (· = '0')).reverse
  return if kept.isEmpty then [] else '.' :: kept

def time : Parser (List Char) := do
  let hour ← twoDigits 0 23
  exactly ':'
  let minute ← twoDigits 0 59
  exactly ':'
  let second ← twoDigits 0 60
  let places ← optional secondPlaces
  return hour ++ ':' :: minute ++ ':' :: second ++ places.getD []

-- An offset of nothing is not negative.
private def timeOffset : Parser (List Char) := do
  match ← char fun c => c = 'Z' || c = 'z' || c = '+' || c = '-' with
  | 'Z' | 'z' => return ['Z']
  | mark =>
      let hour ← twoDigits 0 23
      exactly ':'
      let minute ← twoDigits 0 59
      let shown := if valueIn 10 (hour ++ minute) = 0 then '+' else mark
      return shown :: hour ++ ':' :: minute

private def timeOfDate : Parser (List Char) := do
  let _ ← char fun c => c = 'T' || c = 't' || c = ' '
  let clock ← time
  let zone ← optional timeOffset
  return 'T' :: clock ++ zone.getD []

def dateOrTime : Parser Toml := do
  let written ← (do
      let day ← date
      let clock ← optional timeOfDate
      return day ++ clock.getD []) <|> time
  return .datetime (String.ofList written)

-- The date or time that a quoted text holds, from its first character to its last.
def datetime? (text : String) : Option Toml :=
  match dateOrTime text.toList with
  | some (found, []) => some found
  | _ => none

end ContentTypes.Toml
