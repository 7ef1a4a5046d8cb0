import Stencil.Text.Scanner

/-! # Characters and lines of TOML

Blanks are spaces and tabs; a line ends in a line feed, which a carriage return may precede, or where
the text ends. No other control character stands anywhere. -/

namespace Stencil.Toml
open Text Scanner

def isSpace (c : Char) : Bool := c == ' ' || c == '\t'

/-- The characters of comments and strings that are no line ends. -/
def isPrintable (c : Char) : Bool := c == '\t' || (' ' ≤ c && c != '\x7f')

/-- The characters of keys without quotes. -/
def isBare (c : Char) : Bool := c.isAlphanum || c == '_' || c == '-'

def spaces : Scanner Unit := fun s => some ((), s.dropWhile isSpace)

/-- Whether a carriage return stands before a line feed. -/
def isReturn (c : Char) (s : Text) : Bool := c == '\r' && s.head? == some '\n'

def newline : Scanner Unit := literal ['\n'] <|> literal ['\r', '\n']

def lineEnd : Scanner Unit := fun s => if s.isEmpty then some ((), s) else newline s

def comment : Scanner Unit := fun s =>
  (strip? ['#'] s).map fun s => ((), s.dropWhile isPrintable)

/-- What may follow on a line: blanks and a comment. -/
def restOfLine : Scanner Unit := do
  spaces
  comment <|> pure ()
  lineEnd

/-- A text behind blanks, line ends and comments. -/
def skipGaps (inComment : Bool) : Text → Text
  | [] => []
  | c :: s =>
    if inComment && isPrintable c then skipGaps true s
    else if isSpace c || c == '\n' then skipGaps false s
    else if isReturn c s then skipGaps inComment s
    else if c == '#' then skipGaps true s
    else c :: s

def gaps : Scanner Unit := fun s => some ((), skipGaps false s)

end Stencil.Toml
