import Tsql.Text.Digits

/-!
# Globally unique identifiers

Sixteen bytes, written in hexadecimal in groups of 4, 2, 2, 2 and 6 bytes with hyphens. Reading also
takes the thirty-two digits without hyphens, the hyphenated form in braces, and the hyphenated form
behind `urn:uuid:` in letters of any case.
-/

namespace Tsql

open Text

/-- A globally unique identifier. -/
structure Guid where
  bytes : List UInt8
  length_eq : bytes.length = 16
  deriving DecidableEq, Repr

namespace Guid

/-- The identifier with given bytes, if there are sixteen. -/
def ofBytes? (bytes : List UInt8) : Option Guid :=
  if h : bytes.length = 16 then some ⟨bytes, h⟩ else none

/-- Hexadecimal digits in hyphenated groups, lower case. -/
def text (g : Guid) : String :=
  let group (start count : Nat) := ((g.bytes.drop start).take count).flatMap hexByte
  String.ofList (group 0 4 ++ '-' :: group 4 2 ++ '-' :: group 6 2 ++ '-' :: group 8 2 ++
    '-' :: group 10 6)

def readByte? (a b : Char) : Option UInt8 :=
  match hexValue? a, hexValue? b with
  | some x, some y => some (UInt8.ofNat (16 * x + y))
  | _, _ => none

def readBytes? : List Char → Option (List UInt8)
  | [] => some []
  | [_] => none
  | a :: b :: r => match readByte? a b, readBytes? r with
    | some x, some xs => some (x :: xs)
    | _, _ => none

def readSimple? (s : List Char) : Option Guid := (readBytes? s).bind ofBytes?

/-- Thirty-two digits with hyphens after 8, 12, 16 and 20 of them. -/
def readHyphenated? (s : List Char) : Option Guid :=
  if s.length = 36 ∧ s[8]? = some '-' ∧ s[13]? = some '-' ∧ s[18]? = some '-' ∧
      s[23]? = some '-' then
    readSimple? (s.take 8 ++ (s.drop 9).take 4 ++ (s.drop 14).take 4 ++ (s.drop 19).take 4 ++
      s.drop 24)
  else none

/-- What may stand in front of a hyphenated identifier. -/
def urnMark : List Char := "urn:uuid:".toList

def read? (s : List Char) : Option Guid :=
  if s.length = 32 then readSimple? s
  else if s.length = 38 ∧ s.head? = some '\x7b' ∧ s.getLast? = some '\x7d' then
    readHyphenated? ((s.drop 1).take 36)
  else if (s.take 9).map Char.toLower = urnMark then readHyphenated? (s.drop 9)
  else readHyphenated? s

end Guid

end Tsql
