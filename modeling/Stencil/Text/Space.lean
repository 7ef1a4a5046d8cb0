import Stencil.Text.Basic

/-! # White space

Two sets of characters. `isBlank` is the Unicode property White_Space, by which values and dates are
trimmed; `isGap` is the horizontal space that may stand between the parts of a placeholder. -/

namespace Stencil.Text

/-- The Unicode property White_Space. -/
def isBlank (c : Char) : Bool :=
  let n := c.toNat
  (0x09 ≤ n && n ≤ 0x0d) || n == 0x20 || n == 0x85 || n == 0xa0 || n == 0x1680 ||
    (0x2000 ≤ n && n ≤ 0x200a) || n == 0x2028 || n == 0x2029 || n == 0x202f || n == 0x205f || n == 0x3000

/-- Horizontal space: tab, the blank, and the widths of blank that do not end a line. -/
def isGap (c : Char) : Bool :=
  let n := c.toNat
  n == 0x09 || n == 0x20 || n == 0xa0 || n == 0x1680 || n == 0x180e ||
    (0x2000 ≤ n && n ≤ 0x200a) || n == 0x202f || n == 0x205f || n == 0x3000

/-- A text without the white space at its two ends. -/
def trim (s : Text) : Text := trimBoth isBlank s

end Stencil.Text
