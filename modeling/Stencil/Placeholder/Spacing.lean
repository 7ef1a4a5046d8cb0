import Stencil.Error
import Stencil.Text.Space
import Stencil.Placeholder.Quote

/-! # White space in placeholders

A document is kept with its placeholders compressed: no horizontal space outside quoted runs. -/

namespace Stencil.Placeholder
open Text

/-- Horizontal space goes, except in quoted runs. -/
def compress (placeholder : Text) : Text :=
  (quotePieces placeholder).flatMap fun
    | .plain c => if isGap c then [] else [c]
    | .hit _ run => run

/-- A compressed placeholder begins with a word character and stays on its line. -/
def isWellFormed (compressed : Text) : Bool :=
  match (strip? opening compressed).bind (stripEnd? closing) with
  | some (c :: body) => (c.isAlphanum || c == '_') && !(c :: body).contains '\n'
  | _ => false

/-- Compresses the given placeholders one after the other, each wherever its text stands in `s`. -/
def normalizeEach (s : Text) : List Text → Except Error Text
  | [] => .ok s
  | p :: ps =>
    if isWellFormed (compress p) then
      normalizeEach (if compress p = p then s else replace p (compress p) s) ps
    else .error (.malformed p)

/-- A document with every placeholder compressed; the first malformed one is an error. -/
def normalize (raw : Text) : Except Error Text := normalizeEach raw (find raw [])

end Stencil.Placeholder
