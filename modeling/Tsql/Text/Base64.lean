/-!
# Base 64

Bytes as a text over sixty-four letters: each three bytes become four letters, and a shorter last
group is filled up with equals signs.
-/

namespace Tsql.Text

def base64Letter (n : Nat) : Char :=
  if n < 26 then Char.ofNat (65 + n)
  else if n < 52 then Char.ofNat (71 + n)
  else if n < 62 then Char.ofNat (n - 4)
  else if n = 62 then '+'
  else '/'

/-- The four letters of three bytes taken as one number. -/
def base64Group (n : Nat) : List Char :=
  [base64Letter (n / 262144), base64Letter (n / 4096 % 64), base64Letter (n / 64 % 64),
    base64Letter (n % 64)]

def base64 : List UInt8 → List Char
  | a :: b :: c :: r => base64Group (65536 * a.toNat + 256 * b.toNat + c.toNat) ++ base64 r
  | [a, b] => (base64Group (65536 * a.toNat + 256 * b.toNat)).take 3 ++ ['=']
  | [a] => (base64Group (65536 * a.toNat)).take 2 ++ ['=', '=']
  | [] => []

def base64Text (bytes : List UInt8) : String := String.ofList (base64 bytes)

end Tsql.Text
