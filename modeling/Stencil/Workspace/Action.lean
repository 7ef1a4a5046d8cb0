import Stencil.Workspace.Basic

/-! # Actions on a workspace

Everything that changes filters or templates. A failed action leaves the workspace as it was, and so
does one on a template that is not there. Main statement: `after_of_error`. -/

namespace Stencil

inductive Action (φ : Type) where
  | registerGlobal (name : Text) (filter : φ)
  /-- Makes a template from a text, with a copy of the filters known to all. -/
  | create (slot raw : Text)
  | createFromFile (slot name : Text)
  | createFromLoader (slot loader name : Text)
  /-- Copies the template of one slot into another, its filters and bindings with it. -/
  | copy (slot source : Text)
  | register (slot name : Text) (filter : φ)
  | reload (slot raw : Text)
  | reloadFile (slot name : Text)
  | assign (slot : Text) (bindings : Value (Template φ))
  | clearAssigned (slot : Text)
  | assignOnce (slot : Text) (keep : Bool) (bindings : Value (Template φ))
  | save (slot name : Text)

namespace Workspace
variable {φ : Type}

def put (slot : Text) (t : Template φ) (w : Workspace φ) : Workspace φ :=
  { w with templates := w.templates.insert slot t }

/-- Makes a template of a text and puts it into a slot. -/
def make (slot origin raw : Text) (w : Workspace φ) : Except Error (Workspace φ) := do
  return w.put slot (← Template.ofText w.filters origin raw)

/-- Changes the template in a slot, if there is one. -/
def change (slot : Text) (f : Template φ → Except Error (Template φ)) (w : Workspace φ) :
    Except Error (Workspace φ) :=
  match w.templates.get? slot with
  | some t => do return w.put slot (← f t)
  | none => .ok w

def perform (host : Host φ) (action : Action φ) (w : Workspace φ) : Except Error (Workspace φ) :=
  match action with
  | .registerGlobal name filter => .ok (w.registerGlobal name filter)
  | .create slot raw => w.make slot Template.inline raw
  | .createFromFile slot name => do w.make slot name (← w.fetch name)
  | .createFromLoader slot loader name => match w.loaders.get? loader with
    | some loader => do w.make slot name (← w.load loader name)
    | none => .ok w
  | .copy slot source => .ok ((w.templates.get? source).elim w (w.put slot ·))
  | .register slot name filter => w.change slot fun t => .ok (t.register name filter)
  | .reload slot raw => w.change slot (Template.reload Template.inline raw)
  | .reloadFile slot name => do
    let raw ← w.fetch name
    w.change slot (Template.reload name raw)
  | .assign slot bindings => w.change slot (Template.assign bindings)
  | .clearAssigned slot => w.change slot fun t => .ok t.clearAssigned
  | .assignOnce slot keep bindings => w.change slot (Template.assignOnce host keep bindings)
  | .save slot name => match w.templates.get? slot with
    | some t => w.store name t.source
    | none => .ok w

/-- The workspace behind an action, whether it succeeded or not. -/
def after (host : Host φ) (action : Action φ) (w : Workspace φ) : Workspace φ :=
  match w.perform host action with
  | .ok w => w
  | .error _ => w

theorem after_of_error {host : Host φ} {action : Action φ} {w : Workspace φ} {e : Error}
    (h : w.perform host action = .error e) : w.after host action = w := by
  simp [after, h]

end Workspace
end Stencil
