import Stencil.Filter.Query
import Stencil.Filter.Row
import Stencil.Sprintf.Format
import Stencil.Text.Html
import Stencil.Value.Date

/-! # Built-in filters

The filters that every template has. `Builtin.ofName?` finds one by its name, `Builtin.apply` says what
it does, and `Builtin.escapes` whether the text stays escaped afterwards. -/

namespace Stencil
open Text

inductive Builtin where
  | html | raw | url | format | date | abs | selected | checked | blank | set | case | sign | each
  deriving DecidableEq, Repr

namespace Builtin

def all : List Builtin :=
  [html, raw, url, format, date, abs, selected, checked, blank, set, case, sign, each]

def name : Builtin → Text
  | html => "html".toList
  | raw => "raw".toList
  | url => "url".toList
  | format => "format".toList
  | date => "date".toList
  | abs => "abs".toList
  | selected => "selected".toList
  | checked => "checked".toList
  | blank => "blank".toList
  | set => "set".toList
  | case => "case".toList
  | sign => "sign".toList
  | each => "each".toList

/-- The filter of a name; every name that begins with `url` is the filter for URLs. -/
def ofName? (name : Text) : Option Builtin :=
  all.find? (·.name == name) <|> if startsWith url.name name then some url else none

/-- Whether the text is escaped at the end in spite of the filter. -/
def escapes : Builtin → Bool
  | html | raw => false
  | _ => true

/-- The choices of a list whose first character stands between them. -/
def choices : Text → List Text
  | [] => []
  | delimiter :: s => s.splitOn delimiter

/-- The choice at a place; nothing stands anywhere else. -/
def pick (choices : List Text) (place : Option Nat) : Text := (place.bind (choices[·]?)).getD []

/-- The place of a number among negative, zero and positive. -/
def signPlace? (x : Float) : Option Nat :=
  if x.isNaN then none else if x < 0 then some 0 else if x == 0 then some 1 else some 2

variable {τ : Type}

/-- The absolute value; the least integer has none of its type and becomes a string. -/
def absInt (n : Int64) : Value τ :=
  if n = Int64.minValue then .str (Decimal.natural n.toInt.natAbs)
  else .int (if n < 0 then -n else n)

/-- The absolute value of a number or a numeric string; other values stay as they are. -/
def absolute (v : Value τ) : Value τ :=
  match v with
  | .int n => absInt n
  | .float x => .float x.abs
  | .str s => match v.float? with
    | some x => match Decimal.int64? (trim s) with
      | some n => absInt n
      | none => .float x.abs
    | none => v
  | v => v

/-- One filled row for every entry, a line each. -/
def rows (shown : τ → Text) (row : Text) (entries : Dict τ) : Text :=
  trimEnd isBlank <| join ['\n'] <| entries.map fun (k, v) =>
    Row.fill row (Html.escape k) (Html.escape (v.text shown))

/-- What a filter makes of a value and its argument. -/
def apply (observer : Calendar.Observer) (shown : τ → Text) (b : Builtin) (v : Value τ)
    (arg : Option Text) : Except Error (Value τ) :=
  let mark (hit : Bool) : Value τ := .str (if hit then b.name else [])
  match b, arg with
  | html, _ | raw, _ => .ok v
  | url, _ => .ok <| .str <|
    if v.isCollection then (Dict.ofValue v).query shown else Percent.raw (v.text shown)
  | abs, _ => .ok (absolute v)
  | selected, arg | checked, arg => .ok (mark (arg.all (· == v.text shown)))
  | blank, _ => .ok (.str [])
  | _, none => .ok v
  | format, some text => do
    let args := v.entries?.elim [v] fun es => es.map Prod.snd
    return .str (← Sprintf.format shown text args)
  | date, some layout => .ok ((v.date? observer layout).elim v .str)
  | set, some text => .ok (.str (if (v.text shown).isEmpty then [] else text))
  | case, some list => .ok (.str (pick (choices list) (v.int?.bind fun n => n.toInt.toNat?)))
  | sign, some list => .ok (.str (pick (choices list) (v.float?.bind signPlace?)))
  | each, some row => match v.entries? with
    | some entries => .ok (.str (rows shown row entries))
    | none => .error (.notRows v.kind)

end Builtin
end Stencil
