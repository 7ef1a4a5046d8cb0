import Stencil.Value.Basic

/-! # Overlays

A document laid over another: where both hold a dict they combine key by key, and anywhere else the one
on top counts. What is laid over an entry is put at the end, and the last entry fills the gap; `at?` looks
at documents by paths of keys, for which the order of entries does not matter. -/

namespace Stencil

namespace Entries
variable {α : Type}

/-- Takes the entry of a key out; the last entry comes into its place. -/
def pull (key : Text) : Entries α → Entries α
  | [] => []
  | (k, a) :: es => if k = key then es.getLast?.toList ++ es.dropLast else (k, a) :: pull key es

/-- Takes what stands under a key out and puts `new` of it at the end. -/
def renew (key : Text) (new : Option α → α) (es : Entries α) : Entries α :=
  pull key es ++ [(key, new (get? key es))]

end Entries

variable {τ : Type}

mutual

def Value.overlay (base : Value τ) : (top : Value τ) → Value τ
  | .dict top => match base with
    | .dict entries => .dict (Value.overlayEntries entries top)
    | _ => .dict top
  | .null => .null
  | .bool b => .bool b
  | .int n => .int n
  | .float x => .float x
  | .str s => .str s
  | .list items => .list items
  | .template t => .template t

/-- Every value on top goes to its key, over what stands there. -/
def Value.overlayEntries (base : List (Text × Value τ)) :
    (top : List (Text × Value τ)) → List (Text × Value τ)
  | [] => base
  | (key, v) :: top =>
    Value.overlayEntries (Entries.renew key (·.elim v (·.overlay v)) base) top

end

/-- The value under a path of keys. -/
def Value.at? : (path : List Text) → Value τ → Option (Value τ)
  | [], v => some v
  | key :: path, .dict entries => (Entries.get? key entries).bind (Value.at? path)
  | _ :: _, _ => none

end Stencil
