import Stencil.Template.Basic
import Stencil.Template.Substitute

/-! # Rendering

A template renders with the bindings given for once, then with those it keeps; placeholders that are
left and have a quoted default get it at the end. Templates among the bindings are resolved first, with
their own bindings and filters, and leave their defaults to the document that takes them in. Main
statements: `resolvedValue_eq_map` and its companions, which say that resolving is a map over values. -/

namespace Stencil
variable {φ : Type}

mutual

/-- The document with the template's own bindings applied and its defaults left open. -/
def Template.resolved (host : Host φ) : Template φ → Outcome
  | ⟨source, _, assigned, filters⟩ =>
    Document.substitute host filters false (Template.resolvedEntries host assigned) source

def Template.resolvedValue (host : Host φ) : Value (Template φ) → Value Outcome
  | .null => .null
  | .bool b => .bool b
  | .int n => .int n
  | .float x => .float x
  | .str s => .str s
  | .list items => .list (Template.resolvedItems host items)
  | .dict entries => .dict (Template.resolvedEntries host entries)
  | .template t => .template (t.resolved host)

def Template.resolvedItems (host : Host φ) : List (Value (Template φ)) → List (Value Outcome)
  | [] => []
  | v :: vs => Template.resolvedValue host v :: Template.resolvedItems host vs

def Template.resolvedEntries (host : Host φ) :
    List (Text × Value (Template φ)) → List (Text × Value Outcome)
  | [] => []
  | (k, v) :: es => (k, Template.resolvedValue host v) :: Template.resolvedEntries host es

end

namespace Template

mutual

theorem resolvedValue_eq_map (host : Host φ) (v : Value (Template φ)) :
    resolvedValue host v = v.map (resolved host) := by
  match v with
  | .null | .bool _ | .int _ | .float _ | .str _ | .template _ => simp [resolvedValue, Value.map]
  | .list items => simp [resolvedValue, Value.map, resolvedItems_eq_mapItems host items]
  | .dict es => simp [resolvedValue, Value.map, resolvedEntries_eq_mapEntries host es]

theorem resolvedItems_eq_mapItems (host : Host φ) (vs : List (Value (Template φ))) :
    resolvedItems host vs = Value.mapItems (resolved host) vs := by
  match vs with
  | [] => simp [resolvedItems, Value.mapItems]
  | v :: vs =>
    simp [resolvedItems, Value.mapItems, resolvedValue_eq_map host v, resolvedItems_eq_mapItems host vs]

theorem resolvedEntries_eq_mapEntries (host : Host φ) (es : List (Text × Value (Template φ))) :
    resolvedEntries host es = Value.mapEntries (resolved host) es := by
  match es with
  | [] => simp [resolvedEntries, Value.mapEntries]
  | (k, v) :: es =>
    simp [resolvedEntries, Value.mapEntries, resolvedValue_eq_map host v,
      resolvedEntries_eq_mapEntries host es]

end

/-- The document with the bindings that the template keeps. -/
def render (host : Host φ) (t : Template φ) : Outcome := (t.resolved host).map Document.fillDefaults

/-- The document with bindings for this time only, which go before those that the template keeps. -/
def renderWith (host : Host φ) (bindings : Value (Template φ)) (t : Template φ) : Outcome := do
  let once ← Dict.ofBindings .render bindings
  let doc ← Document.substitute host t.filters false (resolvedEntries host once) t.source
  let doc ← Document.substitute host t.filters false (resolvedEntries host t.assigned) doc
  return Document.fillDefaults doc

/-- Bindings for good: the document itself takes them in. With `keep` the placeholders stay behind
their texts, for further calls. -/
def assignOnce (host : Host φ) (keep : Bool) (bindings : Value (Template φ)) (t : Template φ) :
    Except Error (Template φ) := do
  let once ← Dict.ofBindings .assignOnce bindings
  let source ← Document.substitute host t.filters keep (resolvedEntries host once) t.source
  return { t with source }

/-- What is shown for a template: it rendered, or its document where that fails. -/
def shown (host : Host φ) (t : Template φ) : Text :=
  match t.render host with
  | .ok text => text
  | .error _ => t.source

end Template

/-- A value with every template in it rendered. -/
def Value.rendered (host : Host φ) (v : Value (Template φ)) : Except Error Data :=
  v.settle (Template.render host)

/-- The text of a value. -/
def Value.display (host : Host φ) (v : Value (Template φ)) : Text := v.text (Template.shown host)

/-- The text that stands for a value behind filters. -/
def Value.filtered (host : Host φ) (user : Entries φ) (filters : List Text) (v : Value (Template φ)) :
    Outcome := do
  Pipeline.run host user filters (← v.rendered host)

/-- Renders a text with bindings in one step. -/
def render (host : Host φ) (filters : Entries φ) (raw : Text) (bindings : Value (Template φ)) :
    Outcome := do
  (← Template.ofText filters Template.inline raw).renderWith host bindings

/-- What user filters answer, given a host for the templates that they meet. -/
abbrev UserFilters (φ : Type) := Host φ → φ → Value (Template φ) → Option Text → Value (Template φ)

/-- The host of user filters whose answers may be templates that call user filters in turn, up to a
depth. -/
def Host.upTo (observer : Calendar.Observer) (meaning : UserFilters φ) : (depth : Nat) → Host φ
  | 0 => ⟨observer, fun _ _ _ => .error .endlessFilters⟩
  | depth + 1 => ⟨observer, fun f v arg =>
      (meaning (upTo observer meaning depth) f (.ofData v) arg).rendered (upTo observer meaning depth)⟩

end Stencil
