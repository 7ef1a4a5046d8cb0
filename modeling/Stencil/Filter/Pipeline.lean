import Stencil.Filter.Builtin
import Stencil.Filter.Call

/-! # Pipelines

The filters of a placeholder run from left to right over a value without templates. A built-in filter
answers to its name whatever users register; a name that nobody knows and a text that is no call change
nothing. The text at the end is escaped, unless a filter on the way asked for it as it is. -/

namespace Stencil

/-- What rendering takes from outside. -/
structure Host (φ : Type) where
  /-- How dates are seen. -/
  observer : Calendar.Observer
  /-- What a user filter makes of a value and its argument. -/
  answer : φ → Data → Option Text → Except Error Data

namespace Pipeline
variable {φ : Type}

/-- A value on its way, and whether its text will be escaped. -/
structure State where
  value : Data
  escape : Bool

def State.text (st : State) : Text :=
  if st.escape then Html.escape st.value.text else st.value.text

def step (host : Host φ) (user : Entries φ) (st : State) (written : Text) : Except Error State :=
  match FilterCall.ofText? written with
  | none => .ok st
  | some call => match Builtin.ofName? call.name with
    | some b => do
      return ⟨← b.apply host.observer Empty.elim st.value call.arg, st.escape && b.escapes⟩
    | none => match user.get? call.name with
      | some f => do return { st with value := ← host.answer f st.value call.arg }
      | none => .ok st

/-- The text that stands for a value behind the filters. -/
def run (host : Host φ) (user : Entries φ) (filters : List Text) (v : Data) : Except Error Text :=
  return (← filters.foldlM (step host user) ⟨v, true⟩).text

end Pipeline
end Stencil
