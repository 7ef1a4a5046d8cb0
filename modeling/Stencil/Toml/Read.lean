import Stencil.Toml.Scalar
import Stencil.Toml.String
import Stencil.Toml.Table

/-! # Reading TOML

A document is a run of lines: blank ones, pairs of a key and a value, and headers. The pairs behind a
header belong to its table. -/

namespace Stencil.Toml
open Text Scanner

/-- Elements with commas between them, up to the closing bracket. -/
def elements (element : Scanner Item) : (fuel : Nat) → Scanner (List Item)
  | 0 => failure
  | fuel + 1 => do
    gaps
    if ← next? (· == ']') then
      char ']'
      return []
    let v ← element
    gaps
    if ← next? (· == ',') then
      char ','
      return v :: (← elements element fuel)
    char ']'
    return [v]

/-- The pairs of an inline table with commas between them, up to the closing brace. -/
def members (element : Scanner Item) : (fuel : Nat) → Scanner (List (List Text × Item))
  | 0 => failure
  | fuel + 1 => do
    let key ← key
    char '='
    spaces
    let v ← element
    spaces
    if ← next? (· == ',') then
      char ','
      return (key, v) :: (← members element fuel)
    char '\x7d'
    return [(key, v)]

/-- A value around which `depth` more brackets would be too many. -/
def value : (depth : Nat) → Scanner Item
  | 0 => scalar
  | depth + 1 => fun s =>
    match s with
    | '[' :: s => (.array <$> elements (value depth) s.length) s
    | '\x7b' :: s => inlineTable (value depth) s
    | s => scalar s
where
  scalar : Scanner Item := do
    if ← next? (fun c => c == '"' || c == '\'') then return .scalar (.str (← string))
    else if ← next? (· == 't') then literal "true".toList; return .scalar (.bool true)
    else if ← next? (· == 'f') then literal "false".toList; return .scalar (.bool false)
    else .date <$> dateTime <|> .scalar <$> number
  inlineTable (element : Scanner Item) : Scanner Item := do
    spaces
    if ← next? (· == '\x7d') then
      char '\x7d'
      return .table .braced []
    let pairs ← members element (← get).length
    return .table .braced (← Table.addAll pairs [])

inductive Line where
  | blank
  | pair (key : List Text) (item : Item)
  | header (path : List Text)
  /-- The header of a table in an array. -/
  | arrayHeader (path : List Text)

def line : Scanner Line := do
  spaces
  if ← next? (fun c => c == '#' || c == '\n' || c == '\r') then
    restOfLine
    return .blank
  else if ← next? (· == '[') then
    char '['
    if ← next? (· == '[') then
      char '['
      let path ← key
      literal [']', ']']
      restOfLine
      return .arrayHeader path
    else
      let path ← key
      char ']'
      restOfLine
      return .header path
  else if (← get).isEmpty then return .blank
  else
    let key ← key
    char '='
    spaces
    let item ← value (depthLimit - 1)
    restOfLine
    return .pair key item

def lines : (fuel : Nat) → Scanner (List Line)
  | 0 => pure []
  | fuel + 1 => do
    if (← get).isEmpty then return []
    let first ← line
    return first :: (← lines fuel)

/-- The pairs before the first header, and the lines from there on. -/
def leadingPairs : List Line → List (List Text × Item) × List Line
  | [] => ([], [])
  | .blank :: ls => leadingPairs ls
  | .pair key item :: ls => let (pairs, rest) := leadingPairs ls; ((key, item) :: pairs, rest)
  | ls => ([], ls)

/-- Builds the table of a document, line by line from a header on. -/
def addSections (table : Table) : List Line → Option Table
  | [] => some table
  | .header path :: ls => do
    addSections (← Table.openTable (Table.addAll (leadingPairs ls).1) path table) ls
  | .arrayHeader path :: ls => do
    addSections (← Table.openInArray (Table.addAll (leadingPairs ls).1) path table) ls
  | .blank :: ls | .pair _ _ :: ls => addSections table ls

/-- The mark that may stand before a text. -/
def byteOrderMark : Char := '\ufeff'

def read? (s : Text) : Option Data := do
  let s := skipOne byteOrderMark s
  let ls ← whole (lines (s.length + 1)) s
  let table ← Table.addAll (leadingPairs ls).1 []
  tableToData? (← addSections table ls)

end Stencil.Toml
