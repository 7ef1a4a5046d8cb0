import Stencil.Text.Cut

/-! # Rows

A row is text with slots `#key#` and `#val#`, found from left to right without overlap. What goes into
a slot is not looked at again. -/

namespace Stencil.Row
open Text

inductive Slot where
  | key | value
  deriving DecidableEq, Repr

def slot : Matcher Slot := fun s =>
  if startsWith "#key#".toList s then some (.key, 5)
  else if startsWith "#val#".toList s then some (.value, 5)
  else none

/-- The literal characters and slots of a row. -/
def pieces (row : Text) : List (Piece Slot) := cut slot row

def fill (row key value : Text) : Text :=
  Piece.fill (fun slot _ => match slot with
    | .key => key
    | .value => value) (pieces row)

end Stencil.Row
