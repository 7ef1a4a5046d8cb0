import Stencil.Text.Word
import Stencil.Placeholder.Find

/-! # Filter calls

One step of a pipeline, written `name` or `name(argument)`. -/

namespace Stencil

structure FilterCall where
  name : Text
  /-- Without the quotes around it; an empty argument is none. -/
  arg : Option Text
  deriving DecidableEq, Repr

namespace FilterCall
open Text

/-- Reads a call; the argument runs to the last character and stays on its line. -/
def ofText? (s : Text) : Option FilterCall :=
  let name := s.takeWhile isWord
  if name.isEmpty then none else
  match s.drop name.length with
  | [] => some ⟨name, none⟩
  | rest => do
    let written ← stripEnd? [')'] (← strip? ['('] rest)
    if '\n' ∈ written then none else
    let arg := trimBoth Placeholder.isQuote written
    some ⟨name, if arg.isEmpty then none else some arg⟩

end FilterCall
end Stencil
