import Stencil.Text.Quoted
import Stencil.Sprintf.Fault
import Stencil.Storage.Fault

/-! # Errors

What can go wrong, by cause. Every cause is of one kind, and the wording stands in `Kind.message` and
`Error.detail` only. -/

namespace Stencil

/-- The languages in which settings are written down. -/
inductive SettingsSyntax where
  | toml | json
  deriving DecidableEq, Repr

def SettingsSyntax.name : SettingsSyntax → Text
  | toml => "TOML".toList
  | json => "JSON".toList

inductive Error where
  /-- The file of a template cannot be read. -/
  | unreadable (path : Text) (fault : Storage.Fault)
  /-- No directory holds the template. -/
  | notInDirectories (name : Text) (directories : List Text)
  /-- No template in memory has the name. -/
  | notInMemory (name : Text)
  /-- A placeholder does not begin with a word, or spans lines. -/
  | malformed (placeholder : Text)
  /-- Bindings are neither a collection nor null. -/
  | notBindings (operation kind : Text)
  /-- The rows of a scalar were asked for. -/
  | notRows (kind : Text)
  | badFormat (format : Text) (fault : Sprintf.Fault)
  /-- User filters answer with templates whose filters answer with templates, without end. -/
  | endlessFilters
  | unwritable (path : Text) (fault : Storage.Fault)
  | settingsUnreadable (language : SettingsSyntax) (path : Text) (fault : Storage.Fault)
  | settingsUnparsable (language : SettingsSyntax)
  /-- A field of the settings is not of its type. -/
  | settingsMistyped (language : SettingsSyntax)
  deriving DecidableEq, Repr

namespace Error

/-- The step of the work that failed. -/
inductive Kind where
  | load | format | argument | filter | save | configuration | io
  deriving DecidableEq, Repr

/-- The text for a failure of this kind with the given detail. -/
def Kind.message (kind : Kind) (detail : Text) : Text :=
  match kind with
  | load => "Template load error: ".toList ++ detail
  | format => "Format error in template placeholder '".toList ++ detail ++ ['\'']
  | argument => "Invalid argument: ".toList ++ detail
  | filter => "Filter error: ".toList ++ detail
  | save => "Template save error: ".toList ++ detail
  | configuration => "Configuration error: ".toList ++ detail
  | io => "IO error: ".toList ++ detail

/-- The failures that arise while source text becomes a template. -/
def Kind.isLoadFailure : Kind → Bool
  | load | format => true
  | _ => false

def kind : Error → Kind
  | unreadable .. | notInDirectories .. | notInMemory .. => .load
  | malformed .. => .format
  | notBindings .. => .argument
  | notRows .. | badFormat .. | endlessFilters => .filter
  | unwritable .. => .save
  | settingsUnreadable .. | settingsUnparsable .. | settingsMistyped .. => .configuration

def detail : Error → Text
  | unreadable path fault =>
    "Template file '".toList ++ path ++ "' is not readable: ".toList ++ fault.message
  | notInDirectories name directories =>
    "Template '".toList ++ name ++ "' not found in directories: ".toList ++
      Text.bracketed (directories.map Text.quoted)
  | notInMemory name => "Template '".toList ++ name ++ "' not found in StringLoader".toList
  | malformed placeholder => placeholder
  | notBindings operation kind =>
    operation ++ " expects a dict, list or null, got ".toList ++ kind
  | notRows kind => "each expects a list or dict, got ".toList ++ kind
  | badFormat format fault => fault.message format
  | endlessFilters => "user filters answer with templates without end".toList
  | unwritable path fault =>
    "Template file '".toList ++ path ++ "' is not writable: ".toList ++ fault.message
  | settingsUnreadable language path fault =>
    "Failed to read ".toList ++ language.name ++ " file '".toList ++ path ++ "': ".toList ++ fault.message
  | settingsUnparsable language => "Failed to parse ".toList ++ language.name ++ [':']
  | settingsMistyped language => "Failed to deserialize settings from ".toList ++ language.name ++ [':']

def message (e : Error) : Text := e.kind.message e.detail

end Error

variable {α β ε : Type} {x : Except ε α} {f : α → Except ε β} {b : β}

theorem bind_eq_ok_iff : x >>= f = .ok b ↔ ∃ a, x = .ok a ∧ f a = .ok b := by
  cases x with
  | error e =>
    constructor
    · intro h
      cases h
    · rintro ⟨a, h, _⟩
      cases h
  | ok a =>
    constructor
    · exact fun h => ⟨a, rfl, h⟩
    · rintro ⟨a', h, hf⟩
      cases h
      exact hf

theorem bind_eq_ok (h : x >>= f = .ok b) : ∃ a, x = .ok a ∧ f a = .ok b := bind_eq_ok_iff.1 h

end Stencil
