import Stencil.Filter.Registry
import Stencil.Settings.Basic
import Stencil.Storage.Path
import Stencil.Template.Render

/-! # Workspaces

The surroundings of templates: files, the template path below which names are looked up, loaders, the
filters that every new template starts with, and the templates made so far, each under a name. -/

namespace Stencil
open Storage

/-- Where templates come from besides files. -/
inductive Loader where
  /-- Texts in memory, by name. -/
  | memory (texts : Entries Text)
  /-- Folders, searched in order. -/
  | folders (paths : List Text)

structure Workspace (φ : Type) where
  templatePath : Text := []
  filters : Entries φ := []
  files : Tree := []
  loaders : Entries Loader := []
  templates : Entries (Template φ) := []

namespace Workspace
variable {φ : Type}

/-- The path of a name. -/
def resolve (name : Text) (w : Workspace φ) : Text := Storage.resolve w.templatePath name

def setTemplatePath (path : Text) (w : Workspace φ) : Workspace φ :=
  { w with templatePath := asFolder path }

/-- Settings take effect on the template path. -/
def configure (s : Settings) (w : Workspace φ) : Workspace φ := w.setTemplatePath s.templatePath

def registerGlobal (name : Text) (filter : φ) (w : Workspace φ) : Workspace φ :=
  { w with filters := w.filters.insert name filter }

def fetchPath (path : Text) (w : Workspace φ) : Except Error Text :=
  (w.files.read path).mapError (.unreadable path)

def fetch (name : Text) (w : Workspace φ) : Except Error Text := w.fetchPath (w.resolve name)

def store (name text : Text) (w : Workspace φ) : Except Error (Workspace φ) := do
  let files ← (w.files.write (w.resolve name) text).mapError (.unwritable (w.resolve name))
  return { w with files }

/-- The text of a name. Absolute names and loaders without folders go by the template path. -/
def load (loader : Loader) (name : Text) (w : Workspace φ) : Except Error Text :=
  match loader with
  | .memory texts => match texts.get? name with
    | some text => .ok text
    | none => .error (.notInMemory name)
  | .folders paths =>
    if isAbsolute name || paths.isEmpty then w.fetch name
    else match (paths.map (joinPath · name)).find? w.files.contains with
      | some path => w.fetchPath path
      | none => .error (.notInDirectories name paths)

/-- Adds a text to a loader in memory, in place of one with the same name. -/
def addText (loader name text : Text) (w : Workspace φ) : Workspace φ :=
  match w.loaders.get? loader with
  | some (.memory texts) => { w with loaders := w.loaders.insert loader (.memory (texts.insert name text)) }
  | _ => w

end Workspace
end Stencil
