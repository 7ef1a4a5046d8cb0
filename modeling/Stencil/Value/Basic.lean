import Stencil.Entries
import Stencil.Decimal.Read

/-! # Values

What can be bound to a placeholder: scalars, two kinds of collection, and whole templates. `τ` is the
type of templates; `Data` are the values in which no template stands. -/

namespace Stencil

inductive Value (τ : Type) where
  /-- The absence of a value, never substituted. -/
  | null
  | bool (b : Bool)
  | int (n : Int64)
  | float (x : Float)
  | str (s : Text)
  /-- Attributes are positions in decimal. -/
  | list (items : List (Value τ))
  | dict (entries : List (Text × Value τ))
  /-- Spliced in as it is, with its own bindings applied. -/
  | template (t : τ)

/-- The values without templates, which are also the documents of JSON. -/
abbrev Data := Value Empty

abbrev Dict (τ : Type) := Entries (Value τ)

namespace Value
variable {τ : Type}

instance : Inhabited (Value τ) := ⟨null⟩

/-- The name of the kind of a value, as errors show it. -/
def kind : Value τ → Text
  | null => "null".toList
  | bool _ => "bool".toList
  | int _ => "integer".toList
  | float _ => "float".toList
  | str _ => "string".toList
  | list _ => "list".toList
  | dict _ => "dict".toList
  | template _ => "template".toList

def isNull : Value τ → Bool
  | null => true
  | _ => false

def isCollection : Value τ → Bool
  | list _ | dict _ => true
  | _ => false

/-- A collection without entries binds nothing. -/
def isEmptyCollection : Value τ → Bool
  | list items => items.isEmpty
  | dict entries => entries.isEmpty
  | _ => false

/-- The keys and values of a collection; the keys of a list are its positions. -/
def entries? : Value τ → Option (Dict τ)
  | list items => some (Entries.indexed items)
  | dict entries => some entries
  | _ => none

/-- One level of lookup: a key of a dict, or a position of a list. -/
def attr? (name : Text) : Value τ → Option (Value τ)
  | list items => (Decimal.index? name).bind (items[·]?)
  | dict entries => Entries.get? name entries
  | _ => none

/-- A number of 64 bits without a sign is an integer if one with a sign can be it, and else the nearest float. -/
def ofWord (n : UInt64) : Value τ := (Decimal.int64OfInt? n.toNat).elim (float (Decimal.nearest n.toNat 1)) int

/-- What is absent is null. -/
def ofOption {α : Type} (value : α → Value τ) (a? : Option α) : Value τ := a?.elim null value

def ofList {α : Type} (value : α → Value τ) (as : List α) : Value τ := list (as.map value)

/-- Of pairs with the same key, the first gives the place and the last the value. -/
def ofPairs {α : Type} (value : α → Value τ) (pairs : List (Text × α)) : Value τ :=
  dict (Entries.ofPairs (pairs.map fun (key, a) => (key, value a)))

end Value

namespace Dict
variable {τ : Type}

/-- The entries of a collection; a scalar has none. -/
def ofValue (v : Value τ) : Dict τ := v.entries?.getD []

end Dict

mutual

def Value.ofData {τ : Type} : Data → Value τ
  | .null => .null
  | .bool b => .bool b
  | .int n => .int n
  | .float x => .float x
  | .str s => .str s
  | .list items => .list (Value.ofDataItems items)
  | .dict entries => .dict (Value.ofDataEntries entries)
  | .template t => t.elim

def Value.ofDataItems {τ : Type} : List Data → List (Value τ)
  | [] => []
  | v :: vs => Value.ofData v :: Value.ofDataItems vs

def Value.ofDataEntries {τ : Type} : List (Text × Data) → List (Text × Value τ)
  | [] => []
  | (k, v) :: es => (k, Value.ofData v) :: Value.ofDataEntries es

end

end Stencil
