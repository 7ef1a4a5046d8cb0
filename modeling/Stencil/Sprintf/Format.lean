import Stencil.Error
import Stencil.Sprintf.Directive
import Stencil.Value.Number
import Stencil.Value.Show

/-! # Formatting values

`Conversion.write` writes one value, and `format` fills a format text with values from left to right.
Exponents carry a sign and no leading zeros. -/

namespace Stencil.Sprintf
open Text Decimal

/-- What a conversion does with its argument. -/
inductive Specifier where
  | text
  | signed
  | unsigned
  | fixed
  | exponent (upper : Bool)
  | general (upper : Bool)
  | binary
  | octal
  | hex (upper : Bool)
  | character
  deriving DecidableEq, Repr

def Specifier.ofChar? : Char → Option Specifier
  | 's' => some .text
  | 'd' => some .signed
  | 'u' => some .unsigned
  | 'f' | 'F' => some .fixed
  | 'e' => some (.exponent false)
  | 'E' => some (.exponent true)
  | 'g' => some (.general false)
  | 'G' => some (.general true)
  | 'b' => some .binary
  | 'o' => some .octal
  | 'x' => some (.hex false)
  | 'X' => some (.hex true)
  | 'c' => some .character
  | _ => none

/-- The specifiers whose zero padding stands behind the sign. -/
def Specifier.isNumeric : Specifier → Bool
  | signed | fixed | exponent _ | general _ => true
  | _ => false

/-- Without the zeros at the end of its fraction, and without a point that ends it. -/
def trimFraction (s : Text) : Text :=
  if '.' ∈ s then trimEnd (· == '.') (trimEnd (· == '0') s) else s

/-- An exponent behind its mantissa. -/
def withExponent (mantissa : Text) (exponent : Int) : Text :=
  mantissa ++ ['e', if exponent < 0 then '-' else '+'] ++ natural exponent.natAbs

/-- A number that is not finite has a name. -/
def writeFloat (finite : Binary → Text) (x : Float) : Text :=
  match Shape.ofFloat x with
  | .nan => "NaN".toList
  | .infinite negative => sign negative ++ "inf".toList
  | .finite negative size => sign negative ++ finite size

def exponentialText (precision : Nat) (size : Binary) : Text :=
  let (mantissa, exponent) := exponential precision size
  withExponent mantissa exponent

/-- Fixed or with an exponent, whichever is shorter for the precision, without zeros at the end. -/
def generalText (precision : Nat) (size : Binary) : Text :=
  let precision := max precision 1
  let (mantissa, exponent) := exponential (precision - 1) size
  if -4 ≤ exponent ∧ exponent < precision then
    trimFraction (Decimal.fixed (precision - 1 - exponent : Int).toNat size)
  else withExponent (trimFraction mantissa) exponent

namespace Conversion
variable {τ : Type}

/-- With a plus in front, if the conversion asks for one and no minus stands there. -/
def addPlus (c : Conversion) (s : Text) : Text :=
  if c.plus && s.head? != some '-' then '+' :: s else s

/-- The text of the argument before it is padded. -/
def body (c : Conversion) (specifier : Specifier) (shown : τ → Text) (v : Value τ) : Text :=
  let places := c.precision.getD 6
  let unsigned := v.intOf.toUInt64.toNat
  let cased (upper : Bool) (s : Text) := if upper then upperAscii s else s
  match specifier with
  | .text =>
    let s := v.text shown
    c.precision.elim s s.take
  | .signed => c.addPlus (integer v.intOf.toInt)
  | .unsigned => natural unsigned
  | .fixed => c.addPlus (writeFloat (Decimal.fixed places) v.floatOf)
  | .exponent upper => c.addPlus (cased upper (writeFloat (exponentialText places) v.floatOf))
  | .general upper => c.addPlus (cased upper (writeFloat (generalText places) v.floatOf))
  | .binary => Nat.toDigits 2 unsigned
  | .octal => Nat.toDigits 8 unsigned
  | .hex upper => cased upper (Nat.toDigits 16 unsigned)
  | .character => [Char.ofNat (unsigned % 256)]

/-- Fills the field; zeros go between the sign and the digits of a number. -/
def padTo (c : Conversion) (specifier : Specifier) (s : Text) : Text :=
  let fill := List.replicate (c.width - s.length) c.pad
  if c.left then s ++ fill
  else if specifier.isNumeric ∧ c.pad = '0' ∧ (s.head? = some '-' ∨ s.head? = some '+') then
    s.take 1 ++ fill ++ s.drop 1
  else fill ++ s

/-- The text of one argument. A single character is never padded. -/
def write (c : Conversion) (shown : τ → Text) (v : Value τ) : Except Fault Text :=
  match Specifier.ofChar? c.specifier with
  | none => .error (.unknownSpecifier c.specifier)
  | some .character => .ok (c.body .character shown v)
  | some specifier => .ok (c.padTo specifier (c.body specifier shown v))

end Conversion

variable {τ : Type}

/-- Fills directives in; `next` arguments are taken by conversions that name none. -/
def fill (shown : τ → Text) (args : List (Value τ)) : (next : Nat) → List Directive → Except Fault Text
  | _, [] => .ok []
  | next, .literal c :: ds => do return c :: (← fill shown args next ds)
  | next, .convert c :: ds => do
    let index := c.argument.elim next (· - 1)
    match args[index]? with
    | none => throw (.missingArgument (index + 1) args.length)
    | some v =>
      let text ← c.write shown v
      return text ++ (← fill shown args (if c.argument.isSome then next else next + 1) ds)

/-- A fault of the format text counts after those of the conversions before it. -/
def format (shown : τ → Text) (text : Text) (args : List (Value τ)) : Except Error Text :=
  let (directives, fault) := Directive.readAll text
  match fill shown args 0 directives, fault with
  | .ok s, none => .ok s
  | .ok _, some fault => .error (.badFormat text fault)
  | .error fault, _ => .error (.badFormat text fault)

end Stencil.Sprintf
