import ContentTypes.Decimal.Layout
import ContentTypes.Json.Basic

namespace ContentTypes

namespace Json

-- A control character is written as its number in four lower-case digits of base sixteen.
def hexEscape (c : Char) : List Char :=
  let digits := Nat.toDigits 16 c.toNat
  '\\' :: 'u' :: List.replicate (4 - digits.length) '0' ++ digits

-- The quote, the backslash and the control characters below the space are escaped.
def escapeChar (c : Char) : List Char :=
  if c = '"' then ['\\', '"']
  else if c = '\\' then ['\\', '\\']
  else if c = '\x08' then ['\\', 'b']
  else if c = '\x0c' then ['\\', 'f']
  else if c = '\n' then ['\\', 'n']
  else if c = '\r' then ['\\', 'r']
  else if c = '\t' then ['\\', 't']
  else if c.toNat < 32 then hexEscape c
  else [c]

def quoteChars (text : List Char) : List Char :=
  '"' :: text.flatMap escapeChar ++ ['"']

def quote (text : String) : String := String.ofList (quoteChars text.toList)

end Json

def Number.text : Number → String
  | .int value => toString value
  | .real bits => Decimal.Layout.json.text bits

namespace Json

mutual

def compress : Json → String
  | .null => "null"
  | .bool true => "true"
  | .bool false => "false"
  | .num value => value.text
  | .str value => quote value
  | .arr items => "[" ++ ",".intercalate (compressItems items) ++ "]"
  | .obj ⟨members⟩ => "\x7b" ++ ",".intercalate (compressMembers members) ++ "\x7d"

def compressItems : List Json → List String
  | [] => []
  | item :: rest => item.compress :: compressItems rest

def compressMembers : List (String × Json) → List String
  | [] => []
  | (key, value) :: rest => (quote key ++ ":" ++ value.compress) :: compressMembers rest

end

end Json

end ContentTypes
