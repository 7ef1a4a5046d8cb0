import Stencil.Value.Basic
import Stencil.Json.Text

/-! # The text of a value

`text` is what stands in the document before escaping, and `json` is the value as JSON. Both are given
what to show for a template. -/

namespace Stencil
open Text Decimal

/-- Shortest digits, never an exponent, and no mark on integral numbers; a tie goes up. -/
def Value.floatStyle : Style where
  tie := .up
  positional _ := true
  wholeMark := []

/-- A float in a document. -/
def Value.ofFloat (x : Float) : Text :=
  match Shape.ofFloat x with
  | .nan => "NAN".toList
  | .infinite negative => sign negative ++ "INF".toList
  | .finite negative size => sign negative ++ Value.floatStyle.magnitude size

variable {τ : Type}

mutual

/-- The compact JSON text; a template is the string of what is shown for it. -/
def Value.json (shown : τ → Text) : Value τ → Text
  | .null => "null".toList
  | .bool true => "true".toList
  | .bool false => "false".toList
  | .int n => integer n.toInt
  | .float x => Json.ofFloat x
  | .str s => Json.quote s
  | .list items => '[' :: Value.jsonItems shown items
  | .dict entries => '\x7b' :: Value.jsonEntries shown entries
  | .template t => Json.quote (shown t)

/-- The rest of a list after its bracket, or after a comma if it has elements. -/
def Value.jsonItems (shown : τ → Text) : List (Value τ) → Text
  | [] => [']']
  | [v] => v.json shown ++ [']']
  | v :: vs => v.json shown ++ ',' :: Value.jsonItems shown vs

def Value.jsonEntries (shown : τ → Text) : List (Text × Value τ) → Text
  | [] => ['\x7d']
  | [(k, v)] => Json.quote k ++ ':' :: v.json shown ++ ['\x7d']
  | (k, v) :: es => Json.quote k ++ ':' :: v.json shown ++ ',' :: Value.jsonEntries shown es

end

/-- True is `1`, false and null are nothing, and a collection is its JSON. -/
def Value.text (shown : τ → Text) : Value τ → Text
  | .null | .bool false => []
  | .bool true => ['1']
  | .int n => integer n.toInt
  | .float x => Value.ofFloat x
  | .str s => s
  | .list items => (Value.list items).json shown
  | .dict entries => (Value.dict entries).json shown
  | .template t => shown t

/-- The text of a value without templates. -/
def Data.text (v : Data) : Text := Value.text Empty.elim v

end Stencil
