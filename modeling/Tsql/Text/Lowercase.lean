import Tsql.Text.LetterTable

/-!
# Lower case

`lowercase` maps each capital letter to its small letter. Two letters need more than the table: the
dotted capital I becomes an i and a combining dot, and a capital sigma at the end of a word becomes
the final small sigma.
-/

namespace Tsql.Text

def inRanges (ranges : List (Nat × Nat)) (c : Char) : Bool :=
  ranges.any fun (a, b) => a ≤ c.toNat && c.toNat ≤ b

def isCased (c : Char) : Bool := inRanges casedRanges c

/-- A character that is passed over in looking for the next letter. -/
def isCaseIgnorable (c : Char) : Bool := inRanges caseIgnorableRanges c

/-- The small letter of a capital; any other character is left as it is. -/
def lowerLetter (c : Char) : Char :=
  let n := c.toNat
  if n < 0x80 then
    if 65 ≤ n ∧ n ≤ 90 then Char.ofNat (n + 32) else c
  else
    match capitalRuns.find? fun (a, b, step, _) => a ≤ n && n ≤ b && (n - a) % step == 0 with
    | some (_, _, _, distance) => Char.ofNat (n + distance).toNat
    | none => c

/-- The nearest character that is not passed over is a cased letter. -/
def meetsCased (s : List Char) : Bool :=
  match s.dropWhile isCaseIgnorable with
  | [] => false
  | c :: _ => isCased c

/-- Lower case of a text, given the characters before it, the nearest first. -/
def lowercaseAfter (before : List Char) : List Char → List Char
  | [] => []
  | c :: r =>
    let small :=
      if c = 'Σ' then
        if meetsCased before && !meetsCased r then ['ς'] else ['σ']
      else if c = 'İ' then ['i', Char.ofNat 0x307]
      else [lowerLetter c]
    small ++ lowercaseAfter (c :: before) r

def lowercase (s : String) : String := String.ofList (lowercaseAfter [] s.toList)

end Tsql.Text
