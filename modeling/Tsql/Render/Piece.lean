import Tsql.Codec.Literal
import Tsql.Model.Field
import Tsql.Render.Writer

/-!
# Pieces of SQL

A rendering is a list of `Piece`s: words of the language, quoted names, literals, placeholders of
parameters, and line structure. Parameters are numbered when the pieces are written, by first
occurrence: `Piece.numbering` lists them, `writePieces` writes the text.

An `Emission` is a rendering that may stop with an error; what was written before the error is kept.
Emissions are put one after the other with `++`, the first error wins.
-/

namespace Tsql

open Text

inductive Piece where
  /-- Keywords, operators, punctuation, numbers and type names. -/
  | word (text : String)
  /-- A name in brackets. -/
  | name (text : String)
  | literal (l : Literal)
  | placeholder (p : Param)
  | line
  | indent
  | outdent
  deriving DecidableEq, Repr

/-- Adds a parameter to a list unless it is there. -/
def internParam (known : List Param) (p : Param) : List Param :=
  if known.any fun q => q.id == p.id then known else known ++ [p]

def placeholderName (number : Nat) : String := "@p" ++ natText number

def paramNumber (params : List Param) (p : Param) : Nat :=
  (params.findIdx fun q => q.id == p.id) + 1

namespace Piece

/-- The parameters of pieces by first occurrence, after those known before. -/
def numbering (known : List Param) (pieces : List Piece) : List Param :=
  pieces.foldl (fun acc p => match p with
    | placeholder q => internParam acc q
    | _ => acc) known

def write (params : List Param) (w : Writer) : Piece → Writer
  | word s => w.write s
  | name s => w.write (quoteIdentifier s)
  | literal l => w.write l.sql
  | placeholder p => w.write (placeholderName (paramNumber params p))
  | line => w.newLine
  | indent => w.indent
  | outdent => w.outdent

end Piece

def writePieces (params : List Param) (w : Writer) (pieces : List Piece) : Writer :=
  pieces.foldl (Piece.write params) w

/-- Pieces, and the error that ended them. -/
structure Emission where
  pieces : List Piece := []
  failure : Option Error := none
  deriving DecidableEq, Repr

namespace Emission

/-- One rendering after another; nothing follows an error. -/
def append (a b : Emission) : Emission :=
  match a.failure with
  | some _ => a
  | none => ⟨a.pieces ++ b.pieces, b.failure⟩

instance : Append Emission := ⟨append⟩

def nothing : Emission := {}

def piece (p : Piece) : Emission := ⟨[p], none⟩

def word (s : String) : Emission := piece (.word s)

def name (s : String) : Emission := piece (.name s)

def line : Emission := piece .line

def fail (e : Error) : Emission := ⟨[], some e⟩

def after {α : Type} (r : Result α) (f : α → Emission) : Emission :=
  match r with
  | .ok a => f a
  | .error e => fail e

def separated (separator : String) : List Emission → Emission
  | [] => nothing
  | [x] => x
  | x :: r => x ++ word separator ++ separated separator r

def listed (items : List Emission) : Emission := separated ", " items

def names (items : List String) : Emission := listed (items.map name)

end Emission

/-- A written rendering: its text, the parameters known after it, and the error that ended it. -/
structure Written where
  text : String
  params : List Param
  failure : Option Error
  deriving DecidableEq, Repr

/-- Writes a rendering whose parameters are numbered after some known ones. -/
def Emission.written (known : List Param) (x : Emission) : Written :=
  let params := Piece.numbering known x.pieces
  { text := (writePieces params {} x.pieces).text, params, failure := x.failure }

end Tsql
