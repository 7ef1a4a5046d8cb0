import Stencil.Placeholder.Quote

/-! # The parts of a placeholder

`Slot.ofPlaceholder?` reads a placeholder as a key, an attribute, filters and a default;
`Slot.toPlaceholder` writes the parts in one row, the default between double quotes. -/

namespace Stencil

/-- What a placeholder asks for. -/
structure Slot where
  key : Text
  /-- Looked up in the collection bound to the key. -/
  attr : Option Text
  /-- Filter calls as written, in the order in which they run. -/
  filters : List Text
  /-- Without its quotes. -/
  default : Option Text
  deriving DecidableEq, Repr

namespace Slot
open Text Placeholder

/-- The key and the attribute, if there is one. -/
def path (s : Slot) : List Text := s.key :: s.attr.toList

def toPlaceholder (s : Slot) : Text :=
  opening ++ s.key ++ (s.attr.elim [] ('.' :: ·)) ++ s.filters.flatMap ('|' :: ·) ++
    (s.default.elim [] fun d => ['?', '?', '"'] ++ d ++ ['"']) ++ closing

/-- The characters of the name path, the dot included. -/
def isPathChar (c : Char) : Bool := c.isAlphanum || c == '_' || c == '.'

/-- The filter calls in the text between the path and the default. -/
def filters? (s : Text) : Option (List Text) :=
  match s with
  | [] => some []
  | '|' :: _ :: _ =>
    some ((splitOutside '|' (quotePieces (trimBoth (· == '|') s))).filter (!·.isEmpty))
  | _ => none

/-- Reads `path(|filter)*(??default)?` on one line; braces around it are not needed. -/
def ofPlaceholder? (placeholder : Text) : Option Slot :=
  let inner := trimEnd (· == '}') (trimStart (· == '{') placeholder)
  let path := inner.takeWhile isPathChar
  if '\n' ∈ inner || path.isEmpty then none else
  let (calls, default) := splitDefault (quotePieces (inner.drop path.length))
  (filters? calls).map fun filters =>
    let (key, attr) := match splitOnce? '.' path with
      | some (key, attr) => (key, some attr)
      | none => (path, none)
    { key, attr, filters, default := default.map stripQuotes }

end Slot
end Stencil
