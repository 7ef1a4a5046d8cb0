import Stencil.Proofs.Merging
import Stencil.Proofs.Registry
import Stencil.Workspace.Action

/-! # Registries are snapshots

Which user filters the template in a slot finds is settled by the past of the slot (`lineage?`): the last
one registered on it or on what it was copied from, and else the one known to all when it was made
(`filters_snapshot`). What one action makes of the filters of a slot (`filters?_after`) and of the
templates in bindings (`Holds.after`) is carried over all of the past. -/

namespace Stencil
open Placeholder (normalize)
variable {φ : Type}

section
variable {α β α' β' : Type} {R : α → β → Prop}

theorem rel_or {a a' : Option α} {b b' : Option β} (h : Option.Rel R a b) (h' : Option.Rel R a' b') :
    Option.Rel R (a.or a') (b.or b') := by
  cases h with
  | some h => exact .some h
  | none => exact h'

theorem rel_map {S : α' → β' → Prop} {f : α → α'} {g : β → β'} {a : Option α} {b : Option β} (h : Option.Rel R a b)
    (hstep : ∀ x y, R x y → S (f x) (g y)) : Option.Rel S (a.map f) (b.map g) := by
  cases h with
  | some h => exact .some (hstep _ _ h)
  | none => exact .none

end

namespace Template
variable {t t' : Template φ}

theorem keeps_reload {origin raw : Text} (h : t.reload origin raw = .ok t') :
    t'.filters = t.filters ∧ t'.assigned = t.assigned := by
  obtain ⟨source, -, h⟩ := bind_eq_ok h
  cases h
  exact ⟨rfl, rfl⟩

theorem filters_assign {bindings : Value (Template φ)} (h : t.assign bindings = .ok t') :
    t'.filters = t.filters := by
  rw [assign.eq_def] at h
  split at h
  · cases h
    rfl
  · obtain ⟨entries, -, h⟩ := bind_eq_ok h
    cases h
    rfl

theorem keeps_assignOnce {host : Host φ} {keep : Bool} {bindings : Value (Template φ)}
    (h : t.assignOnce host keep bindings = .ok t') : t'.filters = t.filters ∧ t'.assigned = t.assigned := by
  obtain ⟨once, -, h⟩ := bind_eq_ok h
  obtain ⟨source, -, h⟩ := bind_eq_ok h
  cases h
  exact ⟨rfl, rfl⟩

end Template

/-- Whether an action makes a new template for a slot. -/
def Action.creates (w : Workspace φ) (slot : Text) : Action φ → Bool
  | .create s raw => s = slot && (normalize raw).isOk
  | .createFromFile s name => s = slot && (w.fetch name >>= normalize).isOk
  | .createFromLoader s loader name =>
    s = slot && (w.loaders.get? loader).any fun loader => (w.load loader name >>= normalize).isOk
  | _ => false

namespace Workspace
variable {host : Host φ} {w : Workspace φ} {s slot : Text}

def filters? (slot : Text) (w : Workspace φ) : Option (Entries φ) := (w.templates.get? slot).map Template.filters

/-- The workspace behind a step that may have failed. -/
def settled (w : Workspace φ) : Except Error (Workspace φ) → Workspace φ
  | .ok w => w
  | .error _ => w

theorem after_eq_settled (action : Action φ) : w.after host action = w.settled (w.perform host action) := rfl

theorem filters?_put (t : Template φ) :
    (w.put s t).filters? slot = if s = slot then some t.filters else w.filters? slot := by
  rw [filters?, put, Entries.get?_insert, filters?]
  split <;> rfl

theorem filters?_make (origin raw : Text) : (w.settled (w.make s origin raw)).filters? slot =
    if s = slot && (normalize raw).isOk then some w.filters else w.filters? slot := by
  rw [make, Template.ofText]
  cases normalize raw with
  | error e => simp [settled, Except.isOk, Except.toBool, bind, Except.bind]
  | ok source =>
    show (w.put s _).filters? slot = _
    rw [filters?_put]
    simp [Except.isOk, Except.toBool]

theorem filters?_change {f : Template φ → Except Error (Template φ)}
    (hf : ∀ t t', f t = .ok t' → t'.filters = t.filters) :
    (w.settled (w.change s f)).filters? slot = w.filters? slot := by
  rw [change]
  cases ht : w.templates.get? s with
  | none => rfl
  | some t =>
    dsimp only
    cases hft : f t with
    | error e => rfl
    | ok t' =>
      show (w.put s t').filters? slot = _
      rw [filters?_put, hf t t' hft]
      split
      · next hs => rw [filters?, ← hs, ht]; rfl
      · rfl

theorem filters_change {f : Template φ → Except Error (Template φ)} :
    (w.settled (w.change s f)).filters = w.filters := by
  rw [change]
  cases w.templates.get? s with
  | none => rfl
  | some t => dsimp only; cases f t <;> rfl

theorem filters_make (origin raw : Text) : (w.settled (w.make s origin raw)).filters = w.filters := by
  rw [make, Template.ofText]
  cases normalize raw <;> rfl

theorem settled_store (name text : Text) : (w.settled (w.store name text)).filters = w.filters ∧
    (w.settled (w.store name text)).templates = w.templates := by
  rw [store]
  cases w.files.write (w.resolve name) text <;> exact ⟨rfl, rfl⟩

/-- Only a registration for all changes what new templates start with. -/
theorem filters_after (action : Action φ) : (w.after host action).filters =
    match action with
    | .registerGlobal name filter => w.filters.insert name filter
    | _ => w.filters := by
  rw [after_eq_settled]
  cases action with
  | registerGlobal name filter => rfl
  | create s raw => exact filters_make _ raw
  | createFromFile s name =>
    rw [perform]
    cases w.fetch name with
    | error e => rfl
    | ok raw => exact filters_make name raw
  | createFromLoader s loader name =>
    rw [perform]
    cases w.loaders.get? loader with
    | none => rfl
    | some loader =>
      dsimp only
      cases w.load loader name with
      | error e => rfl
      | ok raw => exact filters_make name raw
  | copy s source =>
    rw [perform]
    cases w.templates.get? source <;> rfl
  | reloadFile s name =>
    rw [perform]
    cases w.fetch name with
    | error e => rfl
    | ok raw => exact filters_change
  | save s name =>
    rw [perform]
    cases w.templates.get? s with
    | none => rfl
    | some t => exact (settled_store name t.source).1
  | register | reload | assign | clearAssigned | assignOnce => exact filters_change

/-- What an action makes of the filters of a slot: a new template takes those known to all, a copy those of its
source, and a registration adds one. Nothing else changes them. -/
theorem filters?_after (action : Action φ) : (w.after host action).filters? slot =
    if action.creates w slot then some w.filters
    else match action with
      | .copy s source => if s = slot then (w.filters? source).or (w.filters? slot) else w.filters? slot
      | .register s name filter =>
        if s = slot then (w.filters? slot).map (Entries.insert name filter) else w.filters? slot
      | _ => w.filters? slot := by
  rw [after_eq_settled]
  cases action with
  | registerGlobal name filter => rfl
  | create s raw => exact filters?_make _ raw
  | createFromFile s name =>
    rw [perform, Action.creates]
    cases w.fetch name with
    | error e => simp [settled, Except.isOk, Except.toBool, bind, Except.bind]
    | ok raw => exact filters?_make name raw
  | createFromLoader s loader name =>
    rw [perform, Action.creates]
    cases w.loaders.get? loader with
    | none => simp [settled]
    | some loader =>
      simp only [Option.any_some]
      cases w.load loader name with
      | error e => simp [settled, Except.isOk, Except.toBool, bind, Except.bind]
      | ok raw => exact filters?_make name raw
  | copy s source =>
    rw [perform]
    cases hsource : w.templates.get? source with
    | none =>
      have hnone : w.filters? source = none := by rw [filters?, hsource]; rfl
      simp [settled, Action.creates, hnone]
    | some t =>
      have hsome : w.filters? source = some t.filters := by rw [filters?, hsource]; rfl
      simp [settled, Action.creates, hsome, filters?_put]
  | register s name filter =>
    rw [perform, change]
    cases ht : w.templates.get? s with
    | none =>
      have hnone : s = slot → w.filters? slot = none := by rintro rfl; rw [filters?, ht]; rfl
      by_cases hs : s = slot
      · simp [settled, Action.creates, hs, hnone hs]
      · simp [settled, Action.creates, hs]
    | some t =>
      have hsome : s = slot → w.filters? slot = some t.filters := by rintro rfl; rw [filters?, ht]; rfl
      show (w.put s (t.register name filter)).filters? slot = _
      rw [filters?_put]
      by_cases hs : s = slot
      · simp [Action.creates, hs, hsome hs, Template.register]
      · simp [Action.creates, hs]
  | reload s raw => exact filters?_change fun t t' h => (Template.keeps_reload h).1
  | reloadFile s name =>
    rw [perform]
    cases w.fetch name with
    | error e => rfl
    | ok raw => exact filters?_change fun t t' h => (Template.keeps_reload h).1
  | assign s bindings => exact filters?_change fun t t' h => Template.filters_assign h
  | clearAssigned s =>
    refine filters?_change fun t t' h => ?_
    cases h
    rfl
  | assignOnce s keep bindings => exact filters?_change fun t t' h => (Template.keeps_assignOnce h).1
  | save s name =>
    rw [perform]
    cases w.templates.get? s with
    | none => rfl
    | some t => exact congrArg (fun templates => (Entries.get? slot templates).map _) (settled_store name t.source).2

/-! ### The past of a slot -/

/-- The workspace behind actions, the latest one first. -/
def behind (host : Host φ) (start : Workspace φ) : List (Action φ) → Workspace φ
  | [] => start
  | action :: past => (behind host start past).after host action

/-- Where the filters of a template come from. -/
structure Lineage (φ : Type) where
  /-- What was past when the template was made, or the one that it was copied from. -/
  origin : List (Action φ)
  /-- What was registered on it, and on the ones that it was copied from until then; the latest first. -/
  registered : Entries φ

/-- The lineage of the template in a slot. -/
def lineage? (host : Host φ) (start : Workspace φ) : List (Action φ) → (slot : Text) → Option (Lineage φ)
  | [], _ => none
  | action :: past, slot =>
    if action.creates (behind host start past) slot then some ⟨past, []⟩
    else match action with
      | .copy s source =>
        if s = slot then (lineage? host start past source).or (lineage? host start past slot)
        else lineage? host start past slot
      | .register s name filter =>
        if s = slot then
          (lineage? host start past slot).map fun l => { l with registered := (name, filter) :: l.registered }
        else lineage? host start past slot
      | _ => lineage? host start past slot

/-- What was registered for all, the latest first. -/
def globals (past : List (Action φ)) : Entries φ :=
  past.filterMap fun
    | .registerGlobal name filter => some (name, filter)
    | _ => none

variable {start : Workspace φ}

theorem get?_filters_behind (past : List (Action φ)) (name : Text) :
    (behind host start past).filters.get? name = ((globals past).get? name).or (start.filters.get? name) := by
  induction past with
  | nil => rfl
  | cons action past ih =>
    rw [behind, filters_after]
    cases action with
    | registerGlobal key filter =>
      show _ = (Entries.get? name ((key, filter) :: globals past)).or _
      rw [Entries.get?_insert, ih, Entries.get?]
      split <;> rfl
    | _ => exact ih

/-- What a template finds: the filters registered on it, in front of those known to all when it was made. -/
def Lineage.Finds (host : Host φ) (start : Workspace φ) (l : Lineage φ) (filters : Entries φ) : Prop :=
  ∀ name, filters.get? name = (l.registered.get? name).or ((behind host start l.origin).filters.get? name)

variable (host) in
theorem lineage_finds (hstart : start.templates = []) (past : List (Action φ)) (slot : Text) :
    Option.Rel (Lineage.Finds host start) (lineage? host start past slot) ((behind host start past).filters? slot) := by
  induction past generalizing slot with
  | nil =>
    have hnone : start.filters? slot = none := by rw [filters?, hstart]; rfl
    show Option.Rel _ none (start.filters? slot)
    rw [hnone]
    exact .none
  | cons action past ih =>
    rw [behind, filters?_after, lineage?.eq_def]
    dsimp only
    by_cases hcreates : action.creates (behind host start past) slot = true
    · rw [if_pos hcreates, if_pos hcreates]
      exact .some fun name => rfl
    · rw [if_neg hcreates, if_neg hcreates]
      cases action with
      | copy s source =>
        dsimp only
        split
        · exact rel_or (ih source) (ih slot)
        · exact ih slot
      | register s key filter =>
        dsimp only
        split
        · refine rel_map (ih slot) fun l filters h name => ?_
          rw [Entries.get?_insert, h name, Entries.get?]
          split <;> rfl
        · exact ih slot
      | _ => exact ih slot

end Workspace

/-! ### Templates in bindings -/

/-- Every template in a value, and in the bindings of such a template, has the property. -/
inductive Value.Holds (P : Template φ → Prop) : Value (Template φ) → Prop
  | plain {v} (hc : v.isCollection = false) (ht : v.isTemplate = false) : Holds P v
  | list {items} (h : ∀ v ∈ items, Holds P v) : Holds P (.list items)
  | dict {es} (h : ∀ e ∈ es, Holds P e.2) : Holds P (.dict es)
  | template {t} (ht : P t) (h : Holds P (.dict t.assigned)) : Holds P (.template t)

theorem Value.Holds.mono {P Q : Template φ → Prop} (hpq : ∀ t, P t → Q t) {v : Value (Template φ)}
    (h : v.Holds P) : v.Holds Q := by
  induction h with
  | plain hc ht => exact .plain hc ht
  | list _ ih => exact .list ih
  | dict _ ih => exact .dict ih
  | template ht _ ih => exact .template (hpq _ ht) ih

theorem Value.inherited_holds (P : Template φ → Prop) : Inherited (fun _ => True) (Holds P) where
  list items := ⟨fun h => by cases h <;> first | assumption | contradiction, .list⟩
  dict es := ⟨fun h => by cases h <;> first | exact ⟨trivial, ‹_›⟩ | contradiction, fun h => .dict h.2⟩
  indexed _ := trivial
  concat _ _ := trivial

namespace Workspace
variable {host : Host φ} {start w : Workspace φ} {P Q : Template φ → Prop}

/-- Every template in the bindings that a template of the workspace keeps has the property. -/
def Holds (P : Template φ → Prop) (w : Workspace φ) : Prop :=
  ∀ slot t, w.templates.get? slot = some t → Value.Holds P (.dict t.assigned)

theorem Holds.mono (hpq : ∀ t, P t → Q t) (h : w.Holds P) : w.Holds Q := fun slot t ht => (h slot t ht).mono hpq

theorem Holds.put (h : w.Holds P) {s : Text} {t : Template φ} (ht : Value.Holds P (.dict t.assigned)) :
    (w.put s t).Holds P := by
  intro slot t' ht'
  rw [Workspace.put, Entries.get?_insert] at ht'
  split at ht'
  · cases ht'
    exact ht
  · exact h slot t' ht'

theorem Holds.make (h : w.Holds P) (s origin raw : Text) : (w.settled (w.make s origin raw)).Holds P := by
  rw [Workspace.make, Template.ofText]
  cases normalize raw with
  | error e => exact h
  | ok source => exact h.put (.dict fun _ he => nomatch he)

theorem Holds.change (h : w.Holds P) {s : Text} {f : Template φ → Except Error (Template φ)}
    (hf : ∀ t t', f t = .ok t' → Value.Holds P (.dict t.assigned) → Value.Holds P (.dict t'.assigned)) :
    (w.settled (w.change s f)).Holds P := by
  rw [Workspace.change]
  cases ht : w.templates.get? s with
  | none => exact h
  | some t =>
    dsimp only
    cases hft : f t with
    | error e => exact h
    | ok t' => exact h.put (hf t t' hft (h s t ht))

theorem holds_assign {bindings : Value (Template φ)} (hb : bindings.Holds P) {t t' : Template φ}
    (h : t.assign bindings = .ok t') (ht : Value.Holds P (.dict t.assigned)) :
    Value.Holds P (.dict t'.assigned) := by
  rw [Template.assign.eq_def] at h
  split at h
  · cases h
    exact .dict fun _ he => nomatch he
  · obtain ⟨entries, hentries, h⟩ := bind_eq_ok h
    cases h
    have hincoming : Value.Holds P (.dict entries) := by
      cases bindings <;> cases hentries
      · exact .dict fun _ he => nomatch he
      · exact (Value.inherited_holds P).entries? hb rfl
      · exact hb
    have hmerge := (Value.inherited_holds P).merge ht hincoming
    rwa [Value.merge] at hmerge

/-- An action brings in no templates but those in bindings that are assigned. -/
theorem Holds.after (h : w.Holds P) (action : Action φ)
    (hassign : ∀ slot bindings, action = .assign slot bindings → bindings.Holds P) : (w.after host action).Holds P := by
  rw [after_eq_settled]
  cases action with
  | registerGlobal name filter => exact h
  | create s raw => exact h.make s _ raw
  | createFromFile s name =>
    rw [perform]
    cases w.fetch name with
    | error e => exact h
    | ok raw => exact h.make s name raw
  | createFromLoader s loader name =>
    rw [perform]
    cases w.loaders.get? loader with
    | none => exact h
    | some loader =>
      dsimp only
      cases w.load loader name with
      | error e => exact h
      | ok raw => exact h.make s name raw
  | copy s source =>
    rw [perform]
    cases hsource : w.templates.get? source with
    | none => exact h
    | some t => exact h.put (h source t hsource)
  | assign s bindings => exact h.change fun t t' ht => holds_assign (hassign s bindings rfl) ht
  | clearAssigned s =>
    refine h.change fun t t' ht _ => ?_
    cases ht
    exact .dict fun _ he => nomatch he
  | register s name filter =>
    refine h.change fun t t' ht hold => ?_
    cases ht
    exact hold
  | reload s raw => exact h.change fun t t' ht hold => by rwa [(Template.keeps_reload ht).2]
  | reloadFile s name =>
    rw [perform]
    cases w.fetch name with
    | error e => exact h
    | ok raw => exact h.change fun t t' ht hold => by rwa [(Template.keeps_reload ht).2]
  | assignOnce s keep bindings => exact h.change fun t t' ht hold => by rwa [(Template.keeps_assignOnce ht).2]
  | save s name =>
    rw [perform]
    cases w.templates.get? s with
    | none => exact h
    | some t =>
      intro slot t' ht'
      dsimp only at ht'
      rw [(settled_store name t.source).2] at ht'
      exact h slot t' ht'

/-- A template that stood in a slot at some time in the past. -/
def Stood (host : Host φ) (start : Workspace φ) (past : List (Action φ)) (t : Template φ) : Prop :=
  ∃ earlier slot, earlier <:+ past ∧ (behind host start earlier).templates.get? slot = some t

/-- The templates in bindings that were assigned are copies of templates in slots. -/
def Closed (host : Host φ) (start : Workspace φ) : List (Action φ) → Prop
  | [] => True
  | action :: past => Closed host start past ∧
    ∀ slot bindings, action = .assign slot bindings → bindings.Holds (Stood host start past)

theorem holds_behind (hstart : start.templates = []) {past : List (Action φ)} (h : Closed host start past) :
    (behind host start past).Holds (Stood host start past) := by
  induction past with
  | nil =>
    intro slot t ht
    rw [behind, hstart] at ht
    cases ht
  | cons action past ih =>
    obtain ⟨hpast, hassign⟩ := h
    refine ((ih hpast).after action hassign).mono ?_
    rintro t ⟨earlier, slot, hearlier, ht⟩
    exact ⟨earlier, slot, hearlier.trans (List.suffix_cons action past), ht⟩

/-- What a template makes of its filters, given where they come from. -/
structure Lineage.Governs (host : Host φ) (start : Workspace φ) (l : Lineage φ) (t : Template φ) : Prop where
  /-- It finds what was registered on it last, or else what all knew when it was made. -/
  finds : l.Finds host start t.filters
  /-- A built-in filter answers to its name, and a user filter to any other name. -/
  answers : ∀ st written call, FilterCall.ofText? written = some call →
    Pipeline.step host t.filters st written = match Builtin.ofName? call.name with
      | some b => (b.apply host.observer Empty.elim st.value call.arg).map fun v => ⟨v, st.escape && b.escapes⟩
      | none => match (l.registered.get? call.name).or ((behind host start l.origin).filters.get? call.name) with
        | some f => (host.answer f st.value call.arg).map fun v => ⟨v, st.escape⟩
        | none => .ok st
  /-- It renders as it would with any registry in which it finds the same user filters. -/
  renders : ∀ filters : Entries φ, filters.Alike t.filters → ∀ bindings,
    Template.renderWith host bindings { t with filters } = t.renderWith host bindings

theorem governs_of_finds {l : Lineage φ} {t : Template φ} (h : l.Finds host start t.filters) :
    l.Governs host start t where
  finds := h
  answers st written call hcall := by
    rw [Pipeline.step, hcall]
    dsimp only
    cases Builtin.ofName? call.name with
    | some b => cases b.apply host.observer Empty.elim st.value call.arg <;> rfl
    | none =>
      dsimp only
      rw [h call.name]
      cases (l.registered.get? call.name).or ((behind host start l.origin).filters.get? call.name) with
      | none => rfl
      | some f => cases host.answer f st.value call.arg <;> rfl
  renders filters halike bindings := by
    rw [Template.renderWith, Template.renderWith]
    dsimp only
    rw [halike.substitute_eq]

/-- Whatever happens to workspaces, a template finds the filters that its lineage gives it, and they answer to
names that no built-in filter has. What was known to all is the last registration under the name. The templates
that a template keeps in its bindings are as they once stood in a slot. -/
theorem filters_snapshot (host : Host φ) {start : Workspace φ} (hstart : start.templates = [])
    (past : List (Action φ)) :
    (∀ slot t, (behind host start past).templates.get? slot = some t →
      ∃ l, lineage? host start past slot = some l ∧ l.Governs host start t) ∧
    (∀ name, (behind host start past).filters.get? name =
      ((globals past).get? name).or (start.filters.get? name)) ∧
    (∀ name, Text.startsWith Builtin.url.name name = true → Builtin.ofName? name = some .url) ∧
    (Closed host start past → (behind host start past).Holds (Stood host start past)) := by
  refine ⟨fun slot t ht => ?_, get?_filters_behind past, fun name => Builtin.ofName?_of_startsWith_url,
    holds_behind hstart⟩
  have hrel := lineage_finds host hstart past slot
  rw [filters?, ht] at hrel
  cases hl : lineage? host start past slot with
  | none => rw [hl] at hrel; cases hrel
  | some l =>
    rw [hl] at hrel
    cases hrel with
    | some hfinds => exact ⟨l, rfl, governs_of_finds hfinds⟩

/-- A copy, and then registrations for all and on the template that was copied. -/
theorem copied_before_registrations :
    let host : Host Nat := ⟨⟨none, 0⟩, fun _ v _ => .ok v⟩
    let past : List (Action Nat) := [.register ['s'] ['f'] 5, .registerGlobal ['f'] 4, .copy ['t'] ['s'],
      .register ['s'] ['g'] 3, .registerGlobal ['g'] 2, .create ['s'] [], .registerGlobal ['f'] 1]
    ({} : Workspace Nat).templates = [] ∧ ∃ t, (behind host {} past).templates.get? ['t'] = some t ∧
      t.filters.get? ['f'] = some 1 ∧ t.filters.get? ['g'] = some 3 := by
  intro host past
  have hstart : ({} : Workspace Nat).templates = [] := rfl
  have hsome : ((behind host {} past).templates.get? ['t']).isSome = true := by decide +kernel
  obtain ⟨t, ht⟩ := Option.isSome_iff_exists.1 hsome
  obtain ⟨l, hl, hgoverns⟩ := (filters_snapshot host hstart past).1 ['t'] t ht
  obtain rfl : ⟨[.registerGlobal ['f'] 1], [(['g'], 3)]⟩ = l := Option.some.inj (Eq.trans (by rfl) hl)
  exact ⟨hstart, t, ht, hgoverns.finds ['f'], hgoverns.finds ['g']⟩

end Workspace
end Stencil
