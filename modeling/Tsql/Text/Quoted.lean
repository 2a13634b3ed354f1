/-!
# Quoted tokens

A bracketed name and a quoted string are the two tokens that can hold arbitrary text. Inside either,
the closing delimiter is written twice, so a single one ends the token.
-/

namespace Tsql.Text

/-- A text with one character written twice wherever it occurs. -/
def doubled (q : Char) : List Char → List Char
  | [] => []
  | c :: r => if c = q then q :: q :: doubled q r else c :: doubled q r

/-- A text with each pair of one character, from the left, written once. -/
def undoubled (q : Char) : List Char → List Char
  | [] => []
  | [c] => [c]
  | a :: b :: r =>
    if a = q ∧ b = q then q :: undoubled q r else a :: undoubled q (b :: r)

def quoteIdentifier (name : String) : String :=
  String.ofList ('[' :: doubled ']' name.toList ++ [']'])

/-- A string literal, with the mark of a national string if asked for. -/
def quoteString (text : String) (unicode : Bool) : String :=
  String.ofList ((if unicode then ['N'] else []) ++ '\'' :: doubled '\'' text.toList ++ ['\''])

theorem doubled_append (q : Char) (s t : List Char) :
    doubled q (s ++ t) = doubled q s ++ doubled q t := by
  induction s with
  | nil => rfl
  | cons c r ih => by_cases h : c = q <;> simp [doubled, h, ih]

theorem undoubled_doubled (q : Char) (s : List Char) : undoubled q (doubled q s) = s := by
  induction s with
  | nil => rfl
  | cons c r ih =>
    by_cases h : c = q
    · simp [doubled, h, undoubled, ih]
    · rw [doubled, if_neg h]
      cases hr : doubled q r with
      | nil => rw [hr] at ih; simp [undoubled] at ih ⊢; exact ih
      | cons b t => rw [hr] at ih; simp [undoubled, h, ih]

end Tsql.Text
