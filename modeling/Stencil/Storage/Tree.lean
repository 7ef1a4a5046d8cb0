import Stencil.Entries
import Stencil.Storage.Fault
import Stencil.Text.Utf8

/-! # A tree of files

Files and folders below one working folder; outside of it stand empty folders only. A path is read name
by name, and a file has nothing below it, not even with a slash at the end of the path. -/

namespace Stencil.Storage
open Text

inductive Node where
  | file (content : List UInt8)
  | folder

/-- Where a path leads. -/
inductive Place where
  /-- Below the working folder; the innermost name comes first. -/
  | below (names : List Text)
  | outside

/-- The nodes below the working folder, by path. -/
abbrev Tree := Entries Node

/-- The path that stands for a place below the working folder. -/
def pathOf (names : List Text) : Text := join ['/'] names.reverse

/-- The lengths in UTF-8 that names and paths may have. -/
def maxName : Nat := 255

def maxPath : Nat := 4095

namespace Tree

def at? (tree : Tree) : Place → Option Node
  | .outside | .below [] => some .folder
  | .below names => tree.get? (pathOf names)

/-- The place that a name leads to from another place, which has to be a folder. An empty name and `.`
lead nowhere else, and `..` leads up. A name that is too long is refused wherever it stands. -/
def enter (tree : Tree) (place : Place) (name : Text) : Except Fault Place :=
  match tree.at? place with
  | none => .error .missing
  | some (.file _) => .error .notDirectory
  | some .folder =>
    if name.isEmpty || name == ['.'] then .ok place
    else if maxName < utf8Size name then .error .nameTooLong
    else match place with
      | .outside => if name == ['.', '.'] then .ok .outside else .error .missing
      | .below [] => .ok (if name == ['.', '.'] then .outside else .below [name])
      | .below (inner :: names) =>
        .ok (.below (if name == ['.', '.'] then names else name :: inner :: names))

/-- Where a path begins. -/
def start (path : Text) : Place := if startsWith ['/'] path then .outside else .below []

/-- Refuses what can be no path. -/
def check (path : Text) : Except Fault Unit :=
  if '\x00' ∈ path then .error .notName
  else if path.isEmpty then .error .missing
  else if maxPath < utf8Size path then .error .nameTooLong
  else .ok ()

def walk (tree : Tree) (path : Text) : Except Fault Place := do
  check path
  (path.splitOn '/').foldlM tree.enter (start path)

def find (tree : Tree) (path : Text) : Except Fault Node := do
  match tree.at? (← tree.walk path) with
  | some node => return node
  | none => throw .missing

def contains (tree : Tree) (path : Text) : Bool := (tree.find path).toBool

/-- The text of a file. -/
def read (tree : Tree) (path : Text) : Except Fault Text := do
  match ← tree.find path with
  | .folder => throw .isDirectory
  | .file content => match ofUtf8? content with
    | some text => return text
    | none => throw .notText

/-- Puts a text into a file, which may be a new one in a folder that is there. A slash at the end asks
for a folder, whatever the last name is. -/
def write (tree : Tree) (path text : Text) : Except Fault Tree := do
  check path
  let bare := trimEnd (· == '/') path
  let names := bare.splitOn '/'
  let folder ← (names.dropLast ++ [['.']]).foldlM tree.enter (start path)
  if bare ≠ path then throw .isDirectory
  let place ← tree.enter folder (names.getLast?.getD [])
  match place, tree.at? place with
  | .outside, _ | _, some .folder => throw .isDirectory
  | .below names, _ => return tree.insert (pathOf names) (.file (utf8 text))

/-- A tree and a place in it, innermost name first, after one more name. A folder that is not there yet is
made, also where `..` leaves it again. -/
def advance : Tree × List Text → (name : Text) → Tree × List Text
  | (tree, place), name =>
    if name.isEmpty || name == ['.'] then (tree, place)
    else if name == ['.', '.'] then (tree, place.tail)
    else
      let place := name :: place
      (if tree.contains (pathOf place) then tree else tree.insert (pathOf place) .folder, place)

/-- Makes a folder with all folders on the way. -/
def addFolder (tree : Tree) (path : Text) : Tree := ((path.splitOn '/').foldl advance (tree, [])).1

/-- Makes a file with all folders on the way. -/
def addFile (tree : Tree) (path : Text) (content : List UInt8) : Tree :=
  let names := path.splitOn '/'
  let (tree, place) := names.dropLast.foldl advance (tree, [])
  tree.insert (pathOf (names.getLast?.getD [] :: place)) (.file content)

end Tree
end Stencil.Storage
