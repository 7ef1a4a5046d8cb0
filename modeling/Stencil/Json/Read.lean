import Stencil.Json.Number

/-! # Reading JSON

One document with white space around it, read as a value without templates. Objects keep the order of
their keys; a repeated key keeps its first place and takes its last value. -/

namespace Stencil.Json
open Text

/-- The white space of JSON. -/
def isSpace (c : Char) : Bool := c == ' ' || c == '\t' || c == '\n' || c == '\r'

/-- How deep brackets may nest. -/
def maxDepth : Nat := 127

def codeUnit? (a b c d : Char) : Option Nat := do
  let a ← hexDigit? a
  let b ← hexDigit? b
  let c ← hexDigit? c
  let d ← hexDigit? d
  some (((a * 16 + b) * 16 + c) * 16 + d)

def shortEscape? (c : Char) : Option Char :=
  if c = '"' ∨ c = '\\' ∨ c = '/' then some c
  else if c = 'b' then some '\x08'
  else if c = 'f' then some '\x0c'
  else if c = 'n' then some '\n'
  else if c = 'r' then some '\r'
  else if c = 't' then some '\t'
  else none

def isHighSurrogate (n : Nat) : Bool := 0xd800 ≤ n && n < 0xdc00

def isLowSurrogate (n : Nat) : Bool := 0xdc00 ≤ n && n < 0xe000

/-- Reads behind the opening quote up to the closing one. -/
def stringBody? : Text → Option (Text × Text)
  | [] => none
  | '"' :: s => some ([], s)
  | '\\' :: 'u' :: a :: b :: c :: d :: s =>
    match codeUnit? a b c d with
    | none => none
    | some unit =>
      if isHighSurrogate unit then
        match s with
        | '\\' :: 'u' :: e :: f :: g :: h :: s =>
          match codeUnit? e f g h with
          | none => none
          | some low =>
            if isLowSurrogate low then
              (stringBody? s).map fun (t, rest) =>
                (Char.ofNat (0x10000 + (unit - 0xd800) * 0x400 + (low - 0xdc00)) :: t, rest)
            else none
        | _ => none
      else if isLowSurrogate unit then none
      else (stringBody? s).map fun (t, rest) => (Char.ofNat unit :: t, rest)
  | '\\' :: e :: s =>
    match shortEscape? e with
    | none => none
    | some c => (stringBody? s).map fun (t, rest) => (c :: t, rest)
  | c :: s =>
    if c.toNat < 0x20 then none
    else (stringBody? s).map fun (t, rest) => (c :: t, rest)

/-- Reads a string with its quotes. -/
def string? : Text → Option (Text × Text)
  | '"' :: s => stringBody? s
  | _ => none

/-! ### Documents -/

def skipSpace (s : Text) : Text := s.dropWhile isSpace

/-- Reads elements with commas between them up to `close`. -/
def elements? {α : Type} (element : Text → Option (α × Text)) (close : Char) :
    (fuel : Nat) → Text → Option (List α × Text)
  | 0, _ => none
  | fuel + 1, s => do
    let (a, rest) ← element (skipSpace s)
    match skipSpace rest with
    | c :: rest =>
      if c = close then some ([a], rest)
      else if c = ',' then do
        let (as, rest) ← elements? element close fuel rest
        some (a :: as, rest)
      else none
    | [] => none

/-- Reads the inside of brackets, which may be empty. -/
def bracketed? {α : Type} (element : Text → Option (α × Text)) (close : Char) (s : Text) :
    Option (List α × Text) :=
  match skipSpace s with
  | c :: rest => if c = close then some ([], rest) else elements? element close s.length (c :: rest)
  | [] => none

/-- A key, a colon, and what `element` reads. -/
def member? {α : Type} (element : Text → Option (α × Text)) (s : Text) :
    Option ((Text × α) × Text) := do
  let (key, rest) ← string? s
  match skipSpace rest with
  | ':' :: rest => do
    let (a, rest) ← element (skipSpace rest)
    some ((key, a), rest)
  | _ => none

/-- Reads a value in which brackets nest `depth` deep at most. -/
def value? : (depth : Nat) → Text → Option (Data × Text)
  | 0, s => scalar? s
  | depth + 1, s =>
    match s with
    | '[' :: s => do
      let (items, rest) ← bracketed? (value? depth) ']' s
      some (.list items, rest)
    | '\x7b' :: s => do
      let (members, rest) ← bracketed? (member? (value? depth)) '\x7d' s
      some (.dict (Entries.ofPairs members), rest)
    | s => scalar? s
where
  scalar? (s : Text) : Option (Data × Text) :=
    match s with
    | '"' :: s => (stringBody? s).map fun (t, rest) => (.str t, rest)
    | 'n' :: s => (strip? "ull".toList s).map (.null, ·)
    | 't' :: s => (strip? "rue".toList s).map (.bool true, ·)
    | 'f' :: s => (strip? "alse".toList s).map (.bool false, ·)
    | s => number? s

/-- The value of a whole document. -/
def read? (s : Text) : Option Data := do
  let (v, rest) ← value? maxDepth (skipSpace s)
  if (skipSpace rest).isEmpty then some v else none

end Stencil.Json
