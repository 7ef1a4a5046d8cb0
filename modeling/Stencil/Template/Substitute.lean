import Stencil.Filter.Pipeline
import Stencil.Placeholder.Slot
import Stencil.Value.Settle

/-! # Substitution

What bindings make of a document. A template among the values is present as its outcome: its document
with its own bindings applied, or the error that came up on the way. Bindings are applied in order, each
to the document that the one before it left. A placeholder stays where nothing is bound to it. -/

namespace Stencil
open Text

/-- What became of a template. -/
abbrev Outcome := Except Error Text

namespace Document
variable {φ : Type}

/-- Every placeholder with a quoted default gives way to the escaped default. -/
def fillDefaults (doc : Text) : Text :=
  Piece.fill (fun literal _ => Html.escape literal) (cut Placeholder.defaulted doc)

/-- Every placeholder of a key that a template can stand for gives way to the text as it is. -/
def splice (key text doc : Text) : Text :=
  Piece.fill (fun _ _ => text) (cut (Placeholder.keyed key) doc)

/-- The part of a bound value that a slot asks for; null is as good as nothing. -/
def resolve? {τ : Type} (slot : Slot) (v : Value τ) : Option (Value τ) := do
  let part ← match slot.attr with
    | some name => v.attr? name
    | none => some v
  if part.isNull then none else some part

/-- A value in a document of its own, where defaults are filled in. -/
def settled (v : Value Outcome) : Except Error Data := v.settle (·.map fillDefaults)

/-- The text for a placeholder, if it can be read and something is bound to it. -/
def answer? (host : Host φ) (user : Entries φ) (v : Value Outcome) (placeholder : Text) :
    Option Outcome := do
  let slot ← Slot.ofPlaceholder? placeholder
  let part ← resolve? slot v
  return settled part >>= Pipeline.run host user slot.filters

/-- One placeholder gives way to its text, wherever it occurs. With `keep` it stays behind the text. -/
def substituteOne (host : Host φ) (user : Entries φ) (keep : Bool) (v : Value Outcome)
    (doc placeholder : Text) : Outcome :=
  match answer? host user v placeholder with
  | none => .ok doc
  | some answer => do
    let text ← answer
    return replace placeholder (if keep then text ++ placeholder else text) doc

/-- One binding; its placeholders are those of the document that it finds. -/
def substituteKey (host : Host φ) (user : Entries φ) (keep : Bool) (doc : Text) :
    Text × Value Outcome → Outcome
  | (key, .template outcome) => do return splice key (← outcome) doc
  | (key, v) =>
    if v.isEmptyCollection then .ok doc
    else (Placeholder.find doc key).foldlM (substituteOne host user keep v) doc

/-- All bindings, in order. -/
def substitute (host : Host φ) (user : Entries φ) (keep : Bool) (bindings : Dict Outcome)
    (doc : Text) : Outcome :=
  bindings.foldlM (substituteKey host user keep) doc

end Document
end Stencil
