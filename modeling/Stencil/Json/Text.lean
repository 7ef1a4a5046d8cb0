import Stencil.Decimal.Notation

/-! # Writing JSON scalars

The compact form: no blanks, and in strings only what must be escaped is escaped. -/

namespace Stencil.Json
open Text Decimal

/-- Between `0.00001` and `9999999999999999.0` a number is written without an exponent and with one
place at least; a tie between two shortest digits goes to the even one. -/
def floatStyle : Style where
  tie := .even
  positional e := -5 ≤ e && e ≤ 15
  wholeMark := ".0".toList

/-- Infinities and the value that is no number have no form in JSON and become `null`. -/
def ofFloat (x : Float) : Text :=
  match Shape.ofFloat x with
  | .finite negative size => sign negative ++ floatStyle.magnitude size
  | _ => "null".toList

def escapeChar (c : Char) : Text :=
  if c = '"' then ['\\', '"']
  else if c = '\\' then ['\\', '\\']
  else if c = '\x08' then ['\\', 'b']
  else if c = '\x0c' then ['\\', 'f']
  else if c = '\n' then ['\\', 'n']
  else if c = '\r' then ['\\', 'r']
  else if c = '\t' then ['\\', 't']
  else if c.toNat < 0x20 then
    ['\\', 'u', '0', '0', Nat.digitChar (c.toNat / 16), Nat.digitChar (c.toNat % 16)]
  else [c]

def quote (s : Text) : Text := '"' :: s.flatMap escapeChar ++ ['"']

end Stencil.Json
