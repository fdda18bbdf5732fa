/-! Places in a text. A span runs from its first character to the place just behind its last one. -/
namespace BlockScript

/-- Lines and columns start at 1, and a column counts characters. -/
structure Position where
  line : Nat
  column : Nat
deriving DecidableEq

namespace Position

def start : Position := ⟨1,1⟩

def after (place : Position) (char : Char) : Position :=
  if char = '\n' then ⟨place.line + 1,1⟩ else ⟨place.line,place.column + 1⟩

def walk (place : Position) (text : List Char) : Position := text.foldl after place

def precedes (earlier later : Position) : Bool :=
  earlier.line < later.line || (earlier.line == later.line && earlier.column < later.column)

def render (place : Position) : String := toString place.line ++ "," ++ toString place.column

end Position

structure Span where
  first : Position
  stop : Position
deriving DecidableEq

namespace Span

def cover (left right : Span) : Span where
  first := if left.first.precedes right.first then left.first else right.first
  stop := if right.stop.precedes left.stop then left.stop else right.stop

def render (span : Span) : String := span.first.render

end Span

end BlockScript
