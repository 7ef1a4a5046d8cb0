import Stencil.Text.Basic

/-! # Faults of a format text -/

namespace Stencil.Sprintf

inductive Fault where
  | argumentZero
  | tooWide (width : Nat)
  | tooPrecise (precision : Nat)
  | noSpecifier
  | unknownSpecifier (specifier : Char)
  | missingArgument (needed given : Nat)
  deriving DecidableEq, Repr

/-- The largest width or precision. -/
def maxField : Nat := 4096

/-- What is wrong with the format text `format`. -/
def Fault.message (format : Text) (fault : Fault) : Text :=
  let natural (n : Nat) : Text := Nat.toDigits 10 n
  let here : Text := "format '".toList ++ format ++ ['\'']
  let exceeds (what : String) (n : Nat) : Text :=
    here ++ ": ".toList ++ what.toList ++ [' '] ++ natural n ++ " exceeds ".toList ++ natural maxField
  match fault with
  | argumentZero => here ++ ": argument number must be greater than zero".toList
  | tooWide n => exceeds "width" n
  | tooPrecise n => exceeds "precision" n
  | noSpecifier => here ++ ": missing conversion specifier".toList
  | unknownSpecifier c => here ++ ": unknown conversion specifier '".toList ++ [c, '\'']
  | missingArgument needed given =>
    here ++ " expects at least ".toList ++ natural needed ++ " argument(s), ".toList ++
      natural given ++ " given".toList

end Stencil.Sprintf
