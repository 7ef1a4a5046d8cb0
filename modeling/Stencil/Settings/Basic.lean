import Stencil.Error
import Stencil.Json.Read
import Stencil.Settings.Overlay
import Stencil.Storage.Tree
import Stencil.Toml.Read

/-! # Settings

Settings come from three places: the defaults, a document laid over them, and the environment, which
has the last word. -/

namespace Stencil

structure Settings where
  /-- The folder that relative names are looked up in; empty for the working folder. -/
  templatePath : Text := []
  logLevel : Text := "info".toList
  debug : Bool := false
  deriving DecidableEq, Repr

namespace Settings

def toData (s : Settings) : Data :=
  .dict [("template_path".toList, .str s.templatePath), ("log_level".toList, .str s.logLevel),
    ("debug".toList, .bool s.debug)]

/-- Settings of the values of their fields, each of its type. -/
def ofFields? : (templatePath logLevel debug : Data) → Option Settings
  | .str templatePath, .str logLevel, .bool debug => some { templatePath, logLevel, debug }
  | _, _, _ => none

/-- Settings of a dict with all fields, or of a list of just the fields in their order. -/
def ofData? : Data → Option Settings
  | .dict entries => do
    ofFields? (← Entries.get? "template_path".toList entries) (← Entries.get? "log_level".toList entries)
      (← Entries.get? "debug".toList entries)
  | .list [templatePath, logLevel, debug] => ofFields? templatePath logLevel debug
  | _ => none

def parse? : SettingsSyntax → Text → Option Data
  | .toml => Toml.read?
  | .json => Json.read?

/-- The settings of a text; fields that it leaves out have their defaults. -/
def ofText (language : SettingsSyntax) (text : Text) : Except Error Settings :=
  match parse? language text with
  | none => .error (.settingsUnparsable language)
  | some document => match ofData? ((toData {}).overlay document) with
    | none => .error (.settingsMistyped language)
    | some s => .ok s

def ofFile (language : SettingsSyntax) (files : Storage.Tree) (path : Text) : Except Error Settings := do
  ofText language (← (files.read path).mapError (.settingsUnreadable language path))

/-- The words that switch something on, in any case. -/
def isOn (word : Text) : Bool :=
  let word := Text.lowerAscii word
  word == "true".toList || word == ['1'] || word == "yes".toList

/-- The settings with the fields that variables are set for. -/
def override (lookup : Text → Option Text) (s : Settings) : Settings where
  templatePath := (lookup "CURLY_TEMPLATE_PATH".toList).getD s.templatePath
  logLevel := (lookup "CURLY_LOG_LEVEL".toList).getD s.logLevel
  debug := ((lookup "CURLY_DEBUG".toList).map isOn).getD s.debug

end Settings

/-- A place for the settings of a program, which are settled once: by hand, or as the defaults when they
are first asked for. -/
structure LazySettings where
  settled : Option Settings := none
  deriving DecidableEq, Repr

namespace LazySettings

def isConfigured (l : LazySettings) : Bool := l.settled.isSome

/-- Settles the settings, or gives them back where others are settled already. -/
def configure (s : Settings) (l : LazySettings) : Except Settings LazySettings :=
  if l.isConfigured then .error s else .ok ⟨some s⟩

/-- The settled settings; the defaults are settled where there are none. -/
def getOrDefault (l : LazySettings) : Settings × LazySettings :=
  let s := l.settled.getD {}
  (s, ⟨some s⟩)

end LazySettings
end Stencil
