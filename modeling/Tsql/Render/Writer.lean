/-!
# Indented text

A `Writer` collects text in lines. A line is indented when its first text is written, by the level
at that moment; an empty line stays empty, and line ends inside a text are not indented.
-/

namespace Tsql

/-- Text with the level of its next line. -/
structure Writer where
  text : String := ""
  level : Nat := 0
  atLineStart : Bool := false
  deriving DecidableEq, Repr

namespace Writer

def indentWidth : Nat := 4

def margin (level : Nat) : String := String.ofList (List.replicate (indentWidth * level) ' ')

def write (w : Writer) (s : String) : Writer :=
  if s = "" then w
  else if w.atLineStart then
    { w with text := w.text ++ margin w.level ++ s, atLineStart := false }
  else { w with text := w.text ++ s }

def newLine (w : Writer) : Writer := { w with text := w.text ++ "\n", atLineStart := true }

def indent (w : Writer) : Writer := { w with level := w.level + 1 }

def outdent (w : Writer) : Writer := { w with level := w.level - 1 }

end Writer

end Tsql
