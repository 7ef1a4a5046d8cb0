import Stencil.Text.Cut

/-! # Names of templates and paths

A name is a path of its own if it is absolute; any other is looked up in a folder. -/

namespace Stencil.Storage
open Text

/-- Whether a name begins with a slash of either kind or with a drive letter. -/
def isAbsolute : Text → Bool
  | '/' :: _ | '\\' :: _ => true
  | c :: ':' :: _ => 'A' ≤ c && c ≤ 'Z'
  | _ => false

/-- A path as what names are put behind: only forward slashes, and one at the end unless it is empty. -/
def asFolder (path : Text) : Text :=
  let path := path.map fun c => if c = '\\' then '/' else c
  if path.isEmpty || path.getLast? == some '/' then path else path ++ ['/']

/-- The path of a name in a folder that ends in a slash or is empty. -/
def resolve (folder name : Text) : Text := if isAbsolute name then name else folder ++ name

/-- A folder and a name with one slash between them. -/
def joinPath (folder name : Text) : Text :=
  if folder.isEmpty || folder.getLast? == some '/' then folder ++ name else folder ++ '/' :: name

end Stencil.Storage
