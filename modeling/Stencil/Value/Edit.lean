import Stencil.Value.Merge

/-! # Edits of a dict

What a caller does to a dict, one edit after the other, with what the edits answer. `slot?` finds the
place of a key; `put` and `take` answer with the value that was there. -/

namespace Stencil

namespace Entries
variable {α : Type}

/-- The value under a key, with what puts another one in its place. -/
def slot? (key : Text) : Entries α → Option (α × (α → Entries α))
  | [] => none
  | (k, a) :: es =>
    if k = key then some (a, fun b => (k, b) :: es)
    else (slot? key es).map fun (old, set) => (old, fun b => (k, a) :: set b)

/-- Inserts a value; a new key goes to the end. Answers with the value that it replaces. -/
def put (key : Text) (a : α) (es : Entries α) : Option α × Entries α :=
  match slot? key es with
  | some (old, set) => (some old, set a)
  | none => (none, es ++ [(key, a)])

/-- Takes the entry of a key out, and answers with its value. -/
def take (key : Text) : Entries α → Option α × Entries α
  | [] => (none, [])
  | (k, a) :: es =>
    if k = key then (some a, es)
    else match take key es with
      | (old, rest) => (old, (k, a) :: rest)

theorem slot?_eq (key : Text) (es : Entries α) :
    slot? key es = (get? key es).map fun old => (old, fun b => insert key b es) := by
  induction es with
  | nil => rfl
  | cons e es ih =>
    obtain ⟨k, a⟩ := e
    by_cases hk : k = key
    · simp [slot?, get?, insert, alter, hk]
    · simp only [slot?, get?, hk, if_false, ih, Option.map_map]
      cases get? key es <;> simp [insert, alter, hk]

end Entries

/-- One edit of a dict. -/
inductive Dict.Edit (τ : Type) where
  | clear
  | insert (key : Text) (v : Value τ)
  | remove (key : Text)
  | merge (incoming : Dict τ)
  /-- Merges into the value under a key; nothing happens where there is none. -/
  | update (key : Text) (v : Value τ)

namespace Dict.Edit
variable {τ : Type}

/-- The dict behind an edit. -/
def apply (d : Dict τ) : Edit τ → Dict τ
  | clear => []
  | insert key v => (d.put key v).2
  | remove key => (d.take key).2
  | merge incoming => Dict.merge d incoming
  | update key v => match d.slot? key with
    | some (old, set) => set (old.merge v)
    | none => d

/-- The values that an edit brings in. -/
def values : Edit τ → List (Value τ)
  | insert _ v | update _ v => [v]
  | merge incoming => [.dict incoming]
  | clear | remove _ => []

end Dict.Edit
end Stencil
