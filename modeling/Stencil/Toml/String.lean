import Stencil.Toml.Lexis

/-! # Strings of TOML

Strings in double quotes know escapes, those in single quotes do not. Between three quotes of a kind a
string may have several lines; two more quotes of the kind may stand before the closing ones. A
backslash at the end of a line takes the white space that follows with it. -/

namespace Stencil.Toml
open Text Scanner

/-- Where the reader of a string stands. -/
inductive StringState where
  /-- Among characters; `folding` behind a backslash that ended a line. -/
  | content (folding : Bool)
  /-- Behind a backslash. -/
  | escape
  /-- Among blanks behind a backslash, which have to end the line. -/
  | lineEnd
  /-- Before so many digits of a code point. -/
  | scalar (left code : Nat)

def shortEscape? : Char → Option Char
  | 'b' => some '\x08'
  | 't' => some '\t'
  | 'n' => some '\n'
  | 'f' => some '\x0c'
  | 'r' => some '\r'
  | '"' => some '"'
  | '\\' => some '\\'
  | _ => none

/-- Whether a quote closes a string of several lines, and how many quotes stand before the closing ones.
-/
def closing? (quote : Char) (s : Text) : Option Nat :=
  let run := (s.takeWhile (· == quote)).length
  if run < 3 then none else some (min (run - 3) 2)

/-- Puts a character before what the rest of a string reads as. -/
def andThen (c : Char) (rest : Option (Text × Text)) : Option (Text × Text) :=
  rest.map fun (t, s) => (c :: t, s)

/-- Reads a string in double quotes behind the opening ones. -/
def basicBody (lines : Bool) : StringState → Text → Option (Text × Text)
  | _, [] => none
  | .content folding, c :: s =>
    if c == '"' then
      if lines then
        match closing? '"' (c :: s) with
        | none => andThen c (basicBody lines (.content false) s)
        | some more => some (List.replicate more '"', s.drop (more + 2))
      else some ([], s)
    else if c == '\\' then basicBody lines .escape s
    else if folding && (isSpace c || c == '\n') then basicBody lines (.content true) s
    else if isPrintable c || (lines && c == '\n') then andThen c (basicBody lines (.content false) s)
    else if lines && isReturn c s then basicBody lines (.content folding) s
    else none
  | .escape, c :: s =>
    if c == 'u' then basicBody lines (.scalar 4 0) s
    else if c == 'U' then basicBody lines (.scalar 8 0) s
    else match shortEscape? c with
      | some d => andThen d (basicBody lines (.content false) s)
      | none =>
        if lines && c == '\n' then basicBody lines (.content true) s
        else if lines && (isSpace c || isReturn c s) then basicBody lines .lineEnd s
        else none
  | .lineEnd, c :: s =>
    if c == '\n' then basicBody lines (.content true) s
    else if isSpace c || isReturn c s then basicBody lines .lineEnd s
    else none
  | .scalar left code, c :: s =>
    match hexDigit? c with
    | none => none
    | some d =>
      let code := code * 16 + d
      if 1 < left then basicBody lines (.scalar (left - 1) code) s
      else if code.isValidChar then andThen (Char.ofNat code) (basicBody lines (.content false) s)
      else none

/-- Reads a string in single quotes behind the opening ones. -/
def literalBody (lines : Bool) : Text → Option (Text × Text)
  | [] => none
  | c :: s =>
    if c == '\'' then
      if lines then
        match closing? '\'' (c :: s) with
        | none => andThen c (literalBody lines s)
        | some more => some (List.replicate more '\'', s.drop (more + 2))
      else some ([], s)
    else if isPrintable c || (lines && c == '\n') then andThen c (literalBody lines s)
    else if lines && isReturn c s then literalBody lines s
    else none

def basicLine : Scanner Text := do
  char '"'
  basicBody false (.content false)

def literalLine : Scanner Text := do
  char '\''
  literalBody false

/-- A string of any kind. A line end right behind three opening quotes does not count. -/
def string : Scanner Text := fun s =>
  let opened (quote : Char) (lines line : Scanner Text) :=
    match strip? [quote, quote, quote] s with
    | some s => (do newline <|> pure (); lines) s
    | none => line s
  if s.head? == some '"' then opened '"' (basicBody true (.content false)) basicLine
  else opened '\'' (literalBody true) literalLine

/-- A key without dots. -/
def simpleKey : Scanner Text := fun s =>
  match s.head? with
  | some '"' => basicLine s
  | some '\'' => literalLine s
  | _ => if s.head?.any isBare then many isBare s else none

/-- No key has so many parts, and no value so many brackets around it. -/
def depthLimit : Nat := 80

/-- The parts of a key behind the first one. -/
def moreKeys : (fuel : Nat) → Scanner (List Text)
  | 0 => pure []
  | fuel + 1 => do
    spaces
    if ← next? (· == '.') then
      char '.'
      spaces
      let part ← simpleKey
      return part :: (← moreKeys fuel)
    else return []

/-- A key: parts with dots between them, and blanks around each. -/
def key : Scanner (List Text) := do
  spaces
  let first ← simpleKey
  let parts ← moreKeys depthLimit
  if depthLimit ≤ parts.length + 1 then failure
  return first :: parts

end Stencil.Toml
