import Stencil.Value.Basic

/-! # Values without their templates

`settle` puts the text of every template in its place; the first failure in reading order wins. Main
statements: a value without templates settles to itself, and `settle_map` lets templates be turned into
something else first. -/

namespace Stencil
variable {τ σ ε : Type}

mutual

/-- A value with `text` in place of every template. -/
def Value.settle (text : τ → Except ε Text) : Value τ → Except ε Data
  | .null => .ok .null
  | .bool b => .ok (.bool b)
  | .int n => .ok (.int n)
  | .float x => .ok (.float x)
  | .str s => .ok (.str s)
  | .list items => do return .list (← Value.settleItems text items)
  | .dict entries => do return .dict (← Value.settleEntries text entries)
  | .template t => do return .str (← text t)

def Value.settleItems (text : τ → Except ε Text) : List (Value τ) → Except ε (List Data)
  | [] => .ok []
  | v :: vs => do
    let d ← v.settle text
    return d :: (← Value.settleItems text vs)

def Value.settleEntries (text : τ → Except ε Text) :
    List (Text × Value τ) → Except ε (List (Text × Data))
  | [] => .ok []
  | (k, v) :: es => do
    let d ← v.settle text
    return (k, d) :: (← Value.settleEntries text es)

end

mutual

/-- A value with something else in place of every template. -/
def Value.map (f : τ → σ) : Value τ → Value σ
  | .null => .null
  | .bool b => .bool b
  | .int n => .int n
  | .float x => .float x
  | .str s => .str s
  | .list items => .list (Value.mapItems f items)
  | .dict entries => .dict (Value.mapEntries f entries)
  | .template t => .template (f t)

def Value.mapItems (f : τ → σ) : List (Value τ) → List (Value σ)
  | [] => []
  | v :: vs => v.map f :: Value.mapItems f vs

def Value.mapEntries (f : τ → σ) : List (Text × Value τ) → List (Text × Value σ)
  | [] => []
  | (k, v) :: es => (k, v.map f) :: Value.mapEntries f es

end

mutual

theorem Value.settle_map (text : σ → Except ε Text) (f : τ → σ) (v : Value τ) :
    (v.map f).settle text = v.settle (text ∘ f) := by
  match v with
  | .null | .bool _ | .int _ | .float _ | .str _ | .template _ => simp [Value.map, Value.settle]
  | .list items => simp [Value.map, Value.settle, Value.settleItems_mapItems text f items]
  | .dict entries => simp [Value.map, Value.settle, Value.settleEntries_mapEntries text f entries]

theorem Value.settleItems_mapItems (text : σ → Except ε Text) (f : τ → σ) (vs : List (Value τ)) :
    Value.settleItems text (Value.mapItems f vs) = Value.settleItems (text ∘ f) vs := by
  match vs with
  | [] => simp [Value.mapItems, Value.settleItems]
  | v :: vs =>
    simp [Value.mapItems, Value.settleItems, v.settle_map text f, Value.settleItems_mapItems text f vs]

theorem Value.settleEntries_mapEntries (text : σ → Except ε Text) (f : τ → σ)
    (es : List (Text × Value τ)) :
    Value.settleEntries text (Value.mapEntries f es) = Value.settleEntries (text ∘ f) es := by
  match es with
  | [] => simp [Value.mapEntries, Value.settleEntries]
  | (k, v) :: es =>
    simp [Value.mapEntries, Value.settleEntries, v.settle_map text f,
      Value.settleEntries_mapEntries text f es]

end

mutual

theorem Value.settle_ofData (text : τ → Except ε Text) (d : Data) :
    (Value.ofData d : Value τ).settle text = .ok d := by
  match d with
  | .null | .bool _ | .int _ | .float _ | .str _ => rfl
  | .list items =>
    rw [Value.ofData, Value.settle, Value.settleItems_ofDataItems text items]
    rfl
  | .dict es =>
    rw [Value.ofData, Value.settle, Value.settleEntries_ofDataEntries text es]
    rfl
  | .template t => exact t.elim

theorem Value.settleItems_ofDataItems (text : τ → Except ε Text) (ds : List Data) :
    Value.settleItems text (Value.ofDataItems ds) = .ok ds := by
  match ds with
  | [] => rfl
  | d :: ds =>
    rw [Value.ofDataItems, Value.settleItems, Value.settle_ofData text d,
      Value.settleItems_ofDataItems text ds]
    rfl

theorem Value.settleEntries_ofDataEntries (text : τ → Except ε Text) (es : List (Text × Data)) :
    Value.settleEntries text (Value.ofDataEntries es) = .ok es := by
  match es with
  | [] => rfl
  | (k, d) :: es =>
    rw [Value.ofDataEntries, Value.settleEntries, Value.settle_ofData text d,
      Value.settleEntries_ofDataEntries text es]
    rfl

end

end Stencil
