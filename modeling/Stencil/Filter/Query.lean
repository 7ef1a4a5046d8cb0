import Stencil.Text.Percent
import Stencil.Value.Show

/-! # Query strings

A collection as a query: one `path=value` for every leaf, in order, the path of a nested leaf being
`key[key][key]`. Null and empty collections leave nothing. -/

namespace Stencil
open Text
variable {τ : Type}

/-- The path of a key below a path. -/
def Query.below (path key : Text) : Text := path ++ "%5B".toList ++ Percent.form key ++ "%5D".toList

def Query.pair (path leaf : Text) : Text := path ++ '=' :: leaf

mutual

/-- The pairs of a value under an encoded path. -/
def Value.pairs (shown : τ → Text) (path : Text) : Value τ → List Text
  | .null => []
  | .bool b => [Query.pair path (if b then ['1'] else ['0'])]
  | .list items => Value.pairsOfItems shown path 0 items
  | .dict entries => Value.pairsOfEntries shown path entries
  | .int n => [Query.pair path (Percent.form ((Value.int n).text shown))]
  | .float x => [Query.pair path (Percent.form ((Value.float x).text shown))]
  | .str s => [Query.pair path (Percent.form s)]
  | .template t => [Query.pair path (Percent.form (shown t))]

def Value.pairsOfItems (shown : τ → Text) (path : Text) : (n : Nat) → List (Value τ) → List Text
  | _, [] => []
  | n, v :: vs =>
    v.pairs shown (Query.below path (Nat.toDigits 10 n)) ++ Value.pairsOfItems shown path (n + 1) vs

def Value.pairsOfEntries (shown : τ → Text) (path : Text) : List (Text × Value τ) → List Text
  | [] => []
  | (k, v) :: es => v.pairs shown (Query.below path k) ++ Value.pairsOfEntries shown path es

end

/-- The query of the entries of a collection. -/
def Dict.query (shown : τ → Text) (d : Dict τ) : Text :=
  join ['&'] (d.flatMap fun (k, v) => v.pairs shown (Percent.form k))

end Stencil
