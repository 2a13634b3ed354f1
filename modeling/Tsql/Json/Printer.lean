import Tsql.Json.Basic
import Tsql.Number.FloatText

/-!
# Compact JSON texts

A value without blanks. Inside a string the quote, the backslash and the control characters are
escaped, everything else stands for itself.
-/

namespace Tsql.Json

open Text

def escapeChar (c : Char) : List Char :=
  if c = '"' then ['\\', '"']
  else if c = '\\' then ['\\', '\\']
  else if c.toNat = 8 then ['\\', 'b']
  else if c.toNat = 12 then ['\\', 'f']
  else if c = '\n' then ['\\', 'n']
  else if c = '\r' then ['\\', 'r']
  else if c = '\t' then ['\\', 't']
  else if c.toNat < 32 then
    ['\\', 'u', '0', '0', digitChar (c.toNat / 16), digitChar (c.toNat % 16)]
  else [c]

def stringText (s : String) : String :=
  String.ofList ('"' :: s.toList.flatMap escapeChar ++ ['"'])

/-- A floating-point number in JSON; `null` for what is not finite. -/
def floatText {l : Layout} (x : Floating l) : String :=
  if x.isFinite then x.text (FloatStyle.json l) else "null"

def numberText : JsonNumber → String
  | .integer i => intText i
  | .float x => floatText x

mutual

def text : Json → String
  | .null => "null"
  | .bool b => if b then "true" else "false"
  | .number n => numberText n
  | .string s => stringText s
  | .array items => "[" ++ String.intercalate "," (itemTexts items) ++ "]"
  | .object fields => "\x7b" ++ String.intercalate "," (fieldTexts fields) ++ "\x7d"

def itemTexts : List Json → List String
  | [] => []
  | j :: r => text j :: itemTexts r

def fieldTexts : List (String × Json) → List String
  | [] => []
  | (k, v) :: r => (stringText k ++ ":" ++ text v) :: fieldTexts r

end

end Tsql.Json
