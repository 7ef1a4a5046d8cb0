import Stencil.Text.Space
import Stencil.Decimal.Read

/-! # Scanners

Small readers for formats with fixed layouts. Each takes something off the front of a text, or fails;
`whole` asks that nothing be left. -/

namespace Stencil
open Text

/-- Reads off the front of a text. -/
abbrev Scanner := StateT Text Option

namespace Scanner
variable {α : Type}

def peek? : Scanner (Option Char) := fun s => some (s.head?, s)

/-- From `least` to `most` digits, as many as there are. -/
def digits (least : Nat) (most : Option Nat) : Scanner Text := fun s =>
  let ds := s.takeWhile Char.isDigit
  let ds := most.elim ds ds.take
  if ds.length < least then none else some (ds, s.drop ds.length)

def number (least : Nat) (most : Option Nat) : Scanner Nat := Decimal.valueOf <$> digits least most

/-- A number of exactly two digits. -/
def two : Scanner Nat := number 2 (some 2)

def char (c : Char) : Scanner Unit := fun
  | d :: s => if d = c then some ((), s) else none
  | [] => none

/-- A given text. -/
def literal (text : Text) : Scanner Unit := fun s => (strip? text s).map ((), ·)

/-- The longest run of characters of a class. -/
def many (p : Char → Bool) : Scanner Text := fun s => some (s.takeWhile p, s.dropWhile p)

/-- What comes next is a character of a class. -/
def next? (p : Char → Bool) : Scanner Bool := fun s => some (s.head?.any p, s)

/-- White space, or none. -/
def blanks : Scanner Unit := fun s => some ((), trimStart isBlank s)

/-- White space, at least one character. -/
def blank : Scanner Unit := fun
  | c :: s => if isBlank c then some ((), trimStart isBlank s) else none
  | [] => none

/-- The place in a list of the three-letter word that comes next, in any case. -/
def word (words : List String) : Scanner Nat := fun s =>
  (words.findIdx? (·.toList == lowerAscii (s.take 3))).map (·, s.drop 3)

/-- What a scanner reads, or nothing where it fails. -/
def maybe (scan : Scanner α) : Scanner (Option α) := some <$> scan <|> pure none

/-- All of a text. -/
def whole (scan : Scanner α) (s : Text) : Option α :=
  match scan s with
  | some (a, []) => some a
  | _ => none

end Scanner
end Stencil
