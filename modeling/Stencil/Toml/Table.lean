import Stencil.Toml.Scalar

/-! # Tables of TOML

A document builds its tables bit by bit, and how a table came to be says what may still go into it. A
key is given once; a table that has a header gets no second one, and dotted keys from outside do not
reach into it. When all is built, `tableToData?` makes a value of the document. -/

namespace Stencil.Toml
open Text

/-- How a table came to be. -/
inductive Making where
  /-- By its own header. -/
  | header
  /-- By the header of a table inside of it. -/
  | implied
  /-- By a dotted key. -/
  | dotted
  /-- Between braces, where it is complete. -/
  | braced
  deriving DecidableEq, Repr

inductive Item where
  | scalar (v : Data)
  | date (text : Text)
  | array (items : List Item)
  | table (making : Making) (entries : List (Text × Item))
  /-- An array of tables; the last one is open. -/
  | tables (ts : List (List (Text × Item)))

/-- The items of a table. -/
abbrev Table := Entries Item

namespace Table

/-- Puts an item under a key, whose last part has to be new. The tables on the way were made by dotted
keys, or by a header inside of them if the key goes on below. -/
def addItem (item : Item) : (key : List Text) → Table → Option Table
  | [], _ => none
  | [k], table => if table.contains k then none else some (table.insert k item)
  | k :: key, table =>
    match table.get? k with
    | none => do return table.insert k (.table .dotted (← addItem item key []))
    | some (.table making entries) =>
      if making = .dotted ∨ (making = .implied ∧ 1 < key.length) then do
        return table.insert k (.table making (← addItem item key entries))
      else none
    | some (.tables ts) => do
      if key.length ≤ 1 then none else
      let last ← addItem item key (ts.getLast?.getD [])
      return table.insert k (.tables (ts.dropLast ++ [last]))
    | some _ => none

/-- Opens the table that a header names and fills it. A table that only headers below it made so far may
still have one of its own, and comes behind all others then. -/
def openTable (fill : Table → Option Table) : (path : List Text) → Table → Option Table
  | [], _ => none
  | [k], table =>
    match table.get? k with
    | none => do return table.insert k (.table .header (← fill []))
    | some (.table .implied entries) => do
      return (table.erase k).insert k (.table .header (← fill entries))
    | some _ => none
  | k :: path, table => below k (openTable fill path) table
where
  /-- Goes into a table that a header passes through. -/
  below (k : Text) (go : Table → Option Table) (table : Table) : Option Table :=
    match table.get? k with
    | none => do return table.insert k (.table .implied (← go []))
    | some (.table making entries) =>
      if making = .braced then none else do return table.insert k (.table making (← go entries))
    | some (.tables ts) => do
      return table.insert k (.tables (ts.dropLast ++ [← go (ts.getLast?.getD [])]))
    | some _ => none

/-- Adds a table to the array that a header names and fills it. -/
def openInArray (fill : Table → Option Table) : (path : List Text) → Table → Option Table
  | [], _ => none
  | [k], table =>
    match table.get? k with
    | none => do return table.insert k (.tables [← fill []])
    | some (.tables ts) => do return table.insert k (.tables (ts ++ [← fill []]))
    | some _ => none
  | k :: path, table => openTable.below k (openInArray fill path) table

/-- The table with pairs of keys and items put into it. -/
def addAll (pairs : List (List Text × Item)) (table : Table) : Option Table :=
  pairs.foldlM (fun table (key, item) => table.addItem item key) table

end Table

/-- The key by which a table stands for a date. -/
def dateMark : Text := "$__toml_private_datetime".toList

/-- The date that is written in a string. -/
def Item.quotedDate? : Item → Option Data
  | .scalar (.str s) => .str <$> Scanner.whole dateTime s
  | _ => none

mutual

def Item.toData? : Item → Option Data
  | .scalar v => some v
  | .date text => some (.str text)
  | .array items => .list <$> itemsToData? items
  | .table _ entries => tableToData? entries
  | .tables ts => .list <$> tablesToData? ts

def itemsToData? : List Item → Option (List Data)
  | [] => some []
  | item :: items => do return (← item.toData?) :: (← itemsToData? items)

/-- A table is a dict. One that begins with the mark of a date is the date behind it, whatever else the
table holds. -/
def tableToData? : List (Text × Item) → Option Data
  | [] => some (.dict [])
  | (k, item) :: es =>
    if k = dateMark then item.quotedDate?
    else do return .dict ((k, ← item.toData?) :: (← entriesToData? es))

def entriesToData? : List (Text × Item) → Option (List (Text × Data))
  | [] => some []
  | (k, item) :: es => do return (k, ← item.toData?) :: (← entriesToData? es)

def tablesToData? : List (List (Text × Item)) → Option (List Data)
  | [] => some []
  | es :: ts => do return (← tableToData? es) :: (← tablesToData? ts)

end

end Stencil.Toml
