import Stencil.Value.Merge
import Stencil.Placeholder.Spacing

/-! # Templates

A template owns its document, the bindings it keeps, and its user filters. `φ` is the type of user
filters. Every operation answers with a new template or an error, so that a failure leaves the old one
as it was. -/

namespace Stencil
open Text

structure Template (φ : Type) where
  /-- The document, with its placeholders normalized. -/
  source : Text
  /-- Where the document came from. -/
  origin : Text
  assigned : List (Text × Value (Template φ))
  filters : Entries φ

/-- What bindings are given for. -/
inductive BindingUse where
  | assign | assignOnce | render
  deriving DecidableEq, Repr

def BindingUse.name : BindingUse → Text
  | assign => "assign".toList
  | assignOnce => "assign_once".toList
  | render => "render".toList

/-- Bindings are a dict or a list; null binds nothing. -/
def Dict.ofBindings {τ : Type} (use : BindingUse) : Value τ → Except Error (Dict τ)
  | .null => .ok []
  | .dict entries => .ok entries
  | .list items => .ok (Entries.indexed items)
  | v => .error (.notBindings use.name v.kind)

namespace Template
variable {φ : Type}

/-- The origin of documents that come from no file. -/
def inline : Text := "<string>".toList

/-- A template without bindings. -/
def ofText (filters : Entries φ) (origin raw : Text) : Except Error (Template φ) := do
  return ⟨← Placeholder.normalize raw, origin, [], filters⟩

/-- Replaces the document; bindings and filters stay. -/
def reload (origin raw : Text) (t : Template φ) : Except Error (Template φ) := do
  return { t with source := ← Placeholder.normalize raw, origin }

/-- The placeholders of the document, or those that begin with a name. -/
def placeholders (name : Text) (t : Template φ) : List Text := Placeholder.find t.source name

def register (name : Text) (filter : φ) (t : Template φ) : Template φ :=
  { t with filters := t.filters.insert name filter }

def clearAssigned (t : Template φ) : Template φ := { t with assigned := [] }

/-- Merges bindings into those that the template keeps; null clears them. -/
def assign (bindings : Value (Template φ)) (t : Template φ) : Except Error (Template φ) :=
  match bindings with
  | .null => .ok t.clearAssigned
  | bindings => do return { t with assigned := Dict.merge t.assigned (← Dict.ofBindings .assign bindings) }

/-- Templates are equal when their documents are. -/
def same (s t : Template φ) : Bool := s.source == t.source

end Template
end Stencil
