import Stencil.Value.Basic

/-! # Deep merge

Collections merge key by key and recursively, lists by position; anything else is replaced by what
comes in. Where a list meets a dict, its positions are keys. Main statements: `mergeIndexed_eq` and
`mergeEntries_eq_absorb`, by which this is one keyed merge in all four cases. -/

namespace Stencil
variable {τ : Type}

mutual

def Value.merge (base : Value τ) : (incoming : Value τ) → Value τ
  | .dict incoming => match base with
    | .dict entries => .dict (Value.mergeEntries entries incoming)
    | .list items => .dict (Value.mergeEntries (Entries.indexed items) incoming)
    | _ => .dict incoming
  | .list incoming => match base with
    | .dict entries => .dict (Value.mergeIndexed entries 0 incoming)
    | .list items => .list (Value.mergeItems items incoming)
    | _ => .list incoming
  | .null => .null
  | .bool b => .bool b
  | .int n => .int n
  | .float x => .float x
  | .str s => .str s
  | .template t => .template t

/-- Every incoming value goes to its key, merged with what stands there. -/
def Value.mergeEntries (base : List (Text × Value τ)) : List (Text × Value τ) → List (Text × Value τ)
  | [] => base
  | (key, v) :: incoming =>
    Value.mergeEntries (Entries.alter key (·.elim v (·.merge v)) base) incoming

/-- As `mergeEntries`, the incoming values having the keys `n`, `n + 1` and so on. -/
def Value.mergeIndexed (base : List (Text × Value τ)) (n : Nat) :
    List (Value τ) → List (Text × Value τ)
  | [] => base
  | v :: incoming =>
    Value.mergeIndexed
      (Entries.alter (Nat.toDigits 10 n) (·.elim v (·.merge v)) base)
      (n + 1) incoming

/-- Every incoming value goes to its position. -/
def Value.mergeItems : (base incoming : List (Value τ)) → List (Value τ)
  | base, [] => base
  | [], v :: incoming => v :: Value.mergeItems [] incoming
  | old :: base, v :: incoming => old.merge v :: Value.mergeItems base incoming

end

theorem Value.mergeIndexed_eq (base : Dict τ) (n : Nat) (incoming : List (Value τ)) :
    Value.mergeIndexed base n incoming = Value.mergeEntries base (Entries.indexedFrom n incoming) := by
  induction incoming generalizing base n with
  | nil => simp [Value.mergeIndexed, Value.mergeEntries, Entries.indexedFrom]
  | cons v vs ih => simp [Value.mergeIndexed, Value.mergeEntries, Entries.indexedFrom, ih]

theorem Value.mergeEntries_eq_absorb (base incoming : Dict τ) :
    Value.mergeEntries base incoming = Entries.absorb Value.merge base incoming := by
  induction incoming generalizing base with
  | nil => simp [Value.mergeEntries, Entries.absorb]
  | cons e incoming ih =>
    obtain ⟨k, v⟩ := e
    simp [Value.mergeEntries, Entries.absorb, ih]

/-- Merges the entries of a dict into another, key by key. -/
def Dict.merge (base incoming : Dict τ) : Dict τ := Value.mergeEntries base incoming

end Stencil
