import Stencil.Text.Cut

/-! # Finding placeholders

A placeholder is two opening braces, a body without closing braces, and two closing braces. `scan`
finds all of them and skips ahead after a failed opening; the plain search that tries every place is
`cut` with the matcher `anywhere`. Three more matchers look for what a binding touches: the placeholders
that begin with a name, those that a sub-template replaces, and those that carry a quoted default. -/

namespace Stencil

namespace Text

/-- The texts without repetition, in the order of their first occurrence. -/
def distinct : List Text → List Text
  | [] => []
  | t :: ts => t :: (distinct ts).filter (· != t)

/-- The text before the first occurrence of `pattern`. -/
def before? (pattern : Text) : Text → Option Text
  | [] => if pattern.isEmpty then some [] else none
  | c :: s => if startsWith pattern (c :: s) then some [] else (before? pattern s).map (c :: ·)

end Text

namespace Placeholder
open Text

def opening : Text := ['{', '{']

def closing : Text := ['}', '}']

/-- How many characters stand before the first closing brace, if a second one follows it. -/
def untilClosing? (s : Text) : Option Nat :=
  let body := s.takeWhile (· != '}')
  if startsWith closing (s.drop body.length) then some body.length else none

/-- A placeholder at the head of a text: its body is not empty and holds no closing brace. -/
def anywhere : Matcher Unit := fun s => do
  let rest ← strip? opening s
  let body ← untilClosing? rest
  if body = 0 then none else some ((), body + 4)

/-- What the head of a text promises: a placeholder of `size + 1` characters, or `more + 1`
characters none of which begins a placeholder. -/
inductive Outlook where
  | found (size : Nat)
  | barren (more : Nat)
  deriving DecidableEq, Repr

/-- An opening whose body is empty or runs into a lone closing brace spoils every opening before that
brace; without any closing brace nothing further can be found. -/
def outlook (s : Text) : Outlook :=
  match strip? opening s with
  | none => .barren 0
  | some rest =>
    let body := rest.takeWhile (· != '}')
    match rest.drop body.length with
    | [] => .barren (s.length - 1)
    | _ :: after => if !body.isEmpty && startsWith ['}'] after
      then .found (body.length + 3) else .barren (body.length + 2)

/-- Where `scan` stands: looking, or passing over characters whose part is settled. -/
inductive Gait where
  | inside (left : Nat)
  | outside (left : Nat)

def scanFrom : Gait → Text → List (Piece Unit)
  | _, [] => []
  | .inside (n + 1), _ :: s => scanFrom (.inside n) s
  | .outside (n + 1), c :: s => .plain c :: scanFrom (.outside n) s
  | _, c :: s =>
    match outlook (c :: s) with
    | .found size => .hit () (c :: s.take size) :: scanFrom (.inside size) s
    | .barren more => .plain c :: scanFrom (.outside more) s

/-- The placeholders of a text and what stands between them. -/
def scan (s : Text) : List (Piece Unit) := scanFrom (.outside 0) s

/-! ### What a binding touches -/

/-- Placeholders whose leading word is `name`: one blank may stand before it, and an attribute, a
filter, a default, a blank or the end follows. -/
def named (name : Text) : Matcher Unit := fun s => do
  let inner := skipOne ' ' (← strip? opening s)
  let rest ← strip? name inner
  let next ← rest.head?
  let tail ← if next ∈ ['}', '.', ' ', '|', '?'] then untilClosing? rest else none
  some ((), s.length - rest.length + tail + 2)

/-- Placeholders that a sub-template bound to `key` replaces: no attribute, one blank at most before
and after the key, then the end, a filter or a default. -/
def keyed (key : Text) : Matcher Unit := fun s => do
  let inner := skipOne ' ' (← strip? opening s)
  let rest := skipOne ' ' (← strip? key inner)
  if startsWith closing rest then
    some ((), s.length - rest.length + 2)
  else
    let next ← rest.head?
    let tail ← if next ∈ ['|', '?'] then untilClosing? rest else none
    if tail < 2 then none else some ((), s.length - rest.length + tail + 2)

def isQuote (c : Char) : Bool := c == '"' || c == '\''

/-- Placeholders with a quoted default. The literal holds a character at least, ends at the first
quote of its kind that the closing braces follow, and stays on its line. -/
def defaulted : Matcher Text := fun s => do
  let rest ← strip? opening s
  let head := rest.takeWhile fun c => c != '?' && c != '{' && c != '}'
  if head.isEmpty then none else
  let quote :: first :: more ← strip? ['?', '?'] (rest.drop head.length) | none
  if !isQuote quote then none else
  let literal := first :: (← before? (quote :: closing) more)
  if '\n' ∈ literal then none else some (literal, head.length + literal.length + 8)

/-- The distinct placeholders of a text; with a name, only those that begin with it. -/
def find (s name : Text) : List Text :=
  distinct (Piece.hits (if name.isEmpty then scan s else cut (named name) s))

/-- The byte ranges that a sub-template bound to `key` replaces. -/
def keySpans (s key : Text) : List Piece.Span := (Piece.spans (cut (keyed key) s)).map Prod.fst

/-- The byte ranges of the placeholders with a quoted default, with the literal. -/
def defaults (s : Text) : List (Piece.Span × Text) := Piece.spans (cut defaulted s)

end Placeholder
end Stencil
