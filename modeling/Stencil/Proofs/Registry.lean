import Stencil.Template.Render

/-! # What rendering asks of a registry

A name of a built-in filter is never looked up among the user filters, so registries that know the same
filters apart from such names render alike (`Entries.Alike.substitute_eq`). Every name that begins with
`url` is one of them (`Builtin.ofName?_of_startsWith_url`). -/

namespace Stencil
variable {φ : Type}

theorem Builtin.ofName?_of_startsWith_url {name : Text} (h : Text.startsWith url.name name = true) :
    ofName? name = some url := by
  rw [ofName?, h]
  cases hfind : all.find? (·.name == name) with
  | none => rfl
  | some b =>
    obtain rfl : b.name = name := by simpa using List.find?_some hfind
    cases b <;> first | rfl | exact absurd h (by decide)

/-- Registries that know the same filters, names of built-in ones apart. -/
def Entries.Alike (f g : Entries φ) : Prop := ∀ name, Builtin.ofName? name = none → f.get? name = g.get? name

namespace Entries.Alike
variable {host : Host φ} {f g : Entries φ} (h : f.Alike g)
include h

theorem step_eq : Pipeline.step host f = Pipeline.step host g := by
  funext st written
  rw [Pipeline.step, Pipeline.step]
  cases FilterCall.ofText? written with
  | none => rfl
  | some call =>
    dsimp only
    cases hb : Builtin.ofName? call.name with
    | none => rw [h call.name hb]
    | some b => rfl

theorem answer?_eq : Document.answer? host f = Document.answer? host g := by
  funext v placeholder
  have hrun : Pipeline.run host f = Pipeline.run host g := by
    funext filters v
    rw [Pipeline.run, Pipeline.run, h.step_eq]
  rw [Document.answer?, Document.answer?, hrun]

theorem substitute_eq (keep : Bool) : Document.substitute host f keep = Document.substitute host g keep := by
  have hone : Document.substituteOne host f keep = Document.substituteOne host g keep := by
    funext v doc placeholder
    rw [Document.substituteOne, Document.substituteOne, h.answer?_eq]
  have hkey : Document.substituteKey host f keep = Document.substituteKey host g keep := by
    funext doc e
    obtain ⟨key, v⟩ := e
    cases v <;> simp only [Document.substituteKey, hone]
  funext bindings doc
  rw [Document.substitute, Document.substitute, hkey]

end Entries.Alike

end Stencil
