import Tsql.Text.Digits

/-!
# Characters and strings of TOML

The smallest parts of a TOML document: blanks, comments, line ends, the four kinds of string, and
keys. A reader takes the rest of a document and gives what it has read and what follows it, or
nothing where the document is malformed.
-/

namespace Tsql.Toml

open Text

def isSpace (c : Char) : Bool := c = ' ' || c = '\t'

/-- Characters that may stand in comments and strings: no control characters but the tab. -/
def isPlain (c : Char) : Bool := c = '\t' || (0x20 ≤ c.toNat && c.toNat ≠ 0x7F)

/-- Characters of a string between quotes that stand for themselves. -/
def isBasic (c : Char) : Bool := isPlain c && c ≠ '"' && c ≠ '\\'

def isLiteral (c : Char) : Bool := isPlain c && c ≠ '\''

def isKeyChar (c : Char) : Bool :=
  ('a' ≤ c && c ≤ 'z') || ('A' ≤ c && c ≤ 'Z') || isDigit c || c = '-' || c = '_'

def takeMark? (c : Char) : List Char → Option (List Char)
  | d :: r => if d = c then some r else none
  | [] => none

def skipSpace (s : List Char) : List Char := s.dropWhile isSpace

def takeLineEnd? : List Char → Option (List Char)
  | '\n' :: r => some r
  | '\r' :: '\n' :: r => some r
  | _ => none

def skipComment : List Char → List Char
  | '#' :: r => r.dropWhile isPlain
  | s => s

/-- The rest after what may follow on a line: blanks, a comment, and the end of the line or of the
document. -/
def finishLine? (s : List Char) : Option (List Char) :=
  match skipComment (skipSpace s) with
  | [] => some []
  | s => takeLineEnd? s

/-- The rest after blanks, comments and line ends; a comment, which one may be in, has to end with
its line. -/
def skipLines? : Bool → List Char → Option (List Char)
  | _, '\n' :: r => skipLines? false r
  | _, '\r' :: '\n' :: r => skipLines? false r
  | _, '\r' :: _ => none
  | false, '#' :: r => skipLines? true r
  | inComment, c :: r =>
    if inComment then if isPlain c then skipLines? true r else none
    else if isSpace c then skipLines? false r
    else some (c :: r)
  | inComment, [] => if inComment then none else some []

/-- The character of a given number of hexadecimal digits and the rest. -/
def takeScalar? (count : Nat) (s : List Char) : Option (Char × List Char) := do
  let ds := s.take count
  let n ← readHexNumber? ds
  if ds.length = count ∧ Nat.isValidChar n then some (Char.ofNat n, s.drop count) else none
where
  /-- The number of hexadecimal digits. -/
  readHexNumber? (ds : List Char) : Option Nat :=
    ds.foldlM (fun n c => (hexValue? c).map (16 * n + ·)) 0

/-- The character of an escape, after its backslash. -/
def takeEscape? : List Char → Option (Char × List Char)
  | 'b' :: r => some (Char.ofNat 8, r)
  | 'f' :: r => some (Char.ofNat 12, r)
  | 'n' :: r => some ('\n', r)
  | 'r' :: r => some ('\r', r)
  | 't' :: r => some ('\t', r)
  | '"' :: r => some ('"', r)
  | '\\' :: r => some ('\\', r)
  | 'u' :: r => takeScalar? 4 r
  | 'U' :: r => takeScalar? 8 r
  | _ => none

/-- Puts characters in front of what is read next. -/
def prepend (front : List Char) (x : Option (List Char × List Char)) :
    Option (List Char × List Char) := x.map fun (s, r) => (front ++ s, r)

/-- A string between quotes, after the first of them. -/
def takeBasic? : Nat → List Char → Option (List Char × List Char)
  | 0, _ => none
  | _, [] => none
  | fuel + 1, c :: r =>
    if c = '"' then some ([], r)
    else if c = '\\' then do
      let (d, r) ← takeEscape? r
      prepend [d] (takeBasic? fuel r)
    else if isBasic c then prepend [c] (takeBasic? fuel r)
    else none

/-- The rest after the blanks and line ends that a backslash at the end of a line joins. -/
def skipJoined : Nat → List Char → List Char
  | 0, s => s
  | fuel + 1, s =>
    let r := skipSpace s
    match takeLineEnd? r with
    | some r => skipJoined fuel r
    | none => r

/-- Quotes inside a string of several lines: a run of up to two stands for itself, three end the
string, and up to two more before these three still belong to it. Gives the quotes that belong to
the string and whether it has ended. -/
def splitQuotes (run : Nat) : Nat × Bool :=
  if run < 3 then (run, false) else (min (run - 3) 2, true)

/-- A string of several lines between triple quotes, after the first of them. -/
def takeMultiBasic? : Nat → List Char → Option (List Char × List Char)
  | 0, _ => none
  | _, [] => none
  | fuel + 1, c :: r =>
    if c = '"' then
      let (kept, ended) := splitQuotes (1 + (r.takeWhile (· = '"')).length)
      let quotes := List.replicate kept '"'
      if ended then some (quotes, (c :: r).drop (kept + 3))
      else prepend quotes (takeMultiBasic? fuel ((c :: r).drop kept))
    else if c = '\\' then
      match takeLineEnd? (skipSpace r) with
      | some r => takeMultiBasic? fuel (skipJoined r.length r)
      | none => do
        let (d, r) ← takeEscape? r
        prepend [d] (takeMultiBasic? fuel r)
    else if isBasic c then prepend [c] (takeMultiBasic? fuel r)
    else do
      let r ← takeLineEnd? (c :: r)
      prepend ['\n'] (takeMultiBasic? fuel r)

/-- A string of several lines between triple apostrophes, after the first of them. -/
def takeMultiLiteral? : Nat → List Char → Option (List Char × List Char)
  | 0, _ => none
  | _, [] => none
  | fuel + 1, c :: r =>
    if c = '\'' then
      let (kept, ended) := splitQuotes (1 + (r.takeWhile (· = '\'')).length)
      let quotes := List.replicate kept '\''
      if ended then some (quotes, (c :: r).drop (kept + 3))
      else prepend quotes (takeMultiLiteral? fuel ((c :: r).drop kept))
    else if isLiteral c then prepend [c] (takeMultiLiteral? fuel r)
    else do
      let r ← takeLineEnd? (c :: r)
      prepend ['\n'] (takeMultiLiteral? fuel r)

/-- A string between apostrophes, after the first of them. -/
def takeLiteral? (s : List Char) : Option (List Char × List Char) :=
  match s.dropWhile isLiteral with
  | '\'' :: r => some (s.takeWhile isLiteral, r)
  | _ => none

/-- The rest after a line end, if one comes first. -/
def skipFirstLineEnd (s : List Char) : List Char := (takeLineEnd? s).getD s

def takeQuoted? : List Char → Option (List Char × List Char)
  | '"' :: r => takeBasic? (r.length + 1) r
  | '\'' :: r => takeLiteral? r
  | _ => none

def takeString? : List Char → Option (List Char × List Char)
  | '"' :: '"' :: '"' :: r => takeMultiBasic? (r.length + 1) (skipFirstLineEnd r)
  | '\'' :: '\'' :: '\'' :: r => takeMultiLiteral? (r.length + 1) (skipFirstLineEnd r)
  | s => takeQuoted? s

/-- One part of a key: a string of one line, or plain characters. -/
def takeKeyPart? (s : List Char) : Option (String × List Char) :=
  match s with
  | '"' :: _ | '\'' :: _ => (takeQuoted? s).map fun (k, r) => (String.ofList k, r)
  | s =>
    let k := s.takeWhile isKeyChar
    if k = [] then none else some (String.ofList k, s.drop k.length)

def takeKeyParts? : Nat → List Char → Option (List String × List Char)
  | 0, _ => none
  | fuel + 1, s => do
    let (k, r) ← takeKeyPart? (skipSpace s)
    match skipSpace r with
    | '.' :: r => do
      let (ks, r) ← takeKeyParts? fuel r
      some (k :: ks, r)
    | r => some ([k], r)

/-- The number of nested values or key parts that is one too many. -/
def depthLimit : Nat := 80

/-- A key: the parts that lead to its table, and its last part. -/
def takeKey? (s : List Char) : Option ((List String × String) × List Char) := do
  let (parts, r) ← takeKeyParts? (s.length + 1) s
  if parts.length < depthLimit then some ((parts.dropLast, ← parts.getLast?), r) else none

end Tsql.Toml
