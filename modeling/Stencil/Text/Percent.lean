import Stencil.Text.Cut
import Stencil.Text.Utf8

/-! # Percent encoding

Letters and digits of the ASCII range and a few more characters stand for themselves, any other
character for its bytes, each written as a percent sign and two hexadecimal digits. -/

namespace Stencil.Percent
open Text

/-- One byte, in upper case. -/
def byte (b : UInt8) : Text :=
  ['%', (Nat.digitChar (b.toNat / 16)).toUpper, (Nat.digitChar (b.toNat % 16)).toUpper]

/-- Encodes all but ASCII letters and digits and the `kept` characters. -/
def encode (kept s : Text) : Text :=
  s.flatMap fun c => if c.isAlphanum || kept.contains c then [c] else (String.utf8EncodeChar c).flatMap byte

/-- For a part of a path or a query. -/
def raw (s : Text) : Text := encode ['-', '_', '.', '~'] s

/-- For a form: a blank is written as a plus. -/
def form (s : Text) : Text := replace "%20".toList ['+'] (encode ['-', '_', '.'] s)

/-- The bytes that an encoded text stands for. -/
def bytes? : Text → Option (List UInt8)
  | [] => some []
  | '%' :: a :: b :: s => do
    let high ← hexDigit? a
    let low ← hexDigit? b
    return (16 * high + low).toUInt8 :: (← bytes? s)
  | c :: s => if c = '%' then none else (bytes? s).map (String.utf8EncodeChar c ++ ·)

/-- Reads an encoded text back. -/
def decode? (s : Text) : Option Text := (bytes? s).bind ofUtf8?

/-- Reads a part of a form back. -/
def ofForm? (s : Text) : Option Text := decode? (s.map fun c => if c = '+' then ' ' else c)

end Stencil.Percent
