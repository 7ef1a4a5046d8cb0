import Stencil.Proofs.Escaping
import Stencil.Proofs.Mapping

/-! # Pipelines see no templates

A pipeline runs over values without templates, since those of the value come first and those of an answer
come before the next filter. `Pipeline.wide` is the run over values of all kinds: it goes through the same
states (`wideStep_widen`), so no template is ever shown in it, and no failure is covered up by the document
of a template (`Value.filtered_inlined`). -/

namespace Stencil
open Text
variable {τ ε φ : Type}

namespace Value

mutual

/-- Whether a template stands in a value, at any depth. -/
def holdsTemplate : Value τ → Bool
  | .list items => itemsHoldTemplate items
  | .dict entries => entriesHoldTemplate entries
  | .template _ => true
  | _ => false

def itemsHoldTemplate : List (Value τ) → Bool
  | [] => false
  | v :: vs => v.holdsTemplate || itemsHoldTemplate vs

def entriesHoldTemplate : List (Text × Value τ) → Bool
  | [] => false
  | (_, v) :: es => v.holdsTemplate || entriesHoldTemplate es

end

mutual

theorem holdsTemplate_ofData (d : Data) : (ofData d : Value τ).holdsTemplate = false := by
  match d with
  | .null | .bool _ | .int _ | .float _ | .str _ => rfl
  | .list items => rw [ofData, holdsTemplate, itemsHoldTemplate_ofDataItems items]
  | .dict es => rw [ofData, holdsTemplate, entriesHoldTemplate_ofDataEntries es]
  | .template t => exact t.elim

theorem itemsHoldTemplate_ofDataItems (ds : List Data) :
    itemsHoldTemplate (ofDataItems ds : List (Value τ)) = false := by
  match ds with
  | [] => rfl
  | d :: ds =>
    rw [ofDataItems, itemsHoldTemplate, holdsTemplate_ofData d, itemsHoldTemplate_ofDataItems ds, Bool.or_self]

theorem entriesHoldTemplate_ofDataEntries (es : List (Text × Data)) :
    entriesHoldTemplate (ofDataEntries es : List (Text × Value τ)) = false := by
  match es with
  | [] => rfl
  | (k, d) :: es =>
    rw [ofDataEntries, entriesHoldTemplate, holdsTemplate_ofData d, entriesHoldTemplate_ofDataEntries es,
      Bool.or_self]

end

mutual

theorem exists_ofData {v : Value τ} (h : v.holdsTemplate = false) : ∃ d, v = ofData d := by
  match v with
  | .null => exact ⟨.null, rfl⟩
  | .bool b => exact ⟨.bool b, rfl⟩
  | .int n => exact ⟨.int n, rfl⟩
  | .float x => exact ⟨.float x, rfl⟩
  | .str s => exact ⟨.str s, rfl⟩
  | .list items =>
    rw [holdsTemplate] at h
    obtain ⟨ds, rfl⟩ := exists_ofDataItems h
    exact ⟨.list ds, rfl⟩
  | .dict es =>
    rw [holdsTemplate] at h
    obtain ⟨ds, rfl⟩ := exists_ofDataEntries h
    exact ⟨.dict ds, rfl⟩

theorem exists_ofDataItems {vs : List (Value τ)} (h : itemsHoldTemplate vs = false) :
    ∃ ds, vs = ofDataItems ds := by
  match vs with
  | [] => exact ⟨[], rfl⟩
  | v :: vs =>
    obtain ⟨hv, hvs⟩ := Bool.or_eq_false_iff.1 h
    obtain ⟨d, rfl⟩ := exists_ofData hv
    obtain ⟨ds, rfl⟩ := exists_ofDataItems hvs
    exact ⟨d :: ds, rfl⟩

theorem exists_ofDataEntries {es : List (Text × Value τ)} (h : entriesHoldTemplate es = false) :
    ∃ ds, es = ofDataEntries ds := by
  match es with
  | [] => exact ⟨[], rfl⟩
  | (k, v) :: es =>
    obtain ⟨hv, hes⟩ := Bool.or_eq_false_iff.1 h
    obtain ⟨d, rfl⟩ := exists_ofData hv
    obtain ⟨ds, rfl⟩ := exists_ofDataEntries hes
    exact ⟨(k, d) :: ds, rfl⟩

end

mutual

/-- The value with a text in place of every template; a value without templates is not looked into. -/
def inlined (text : τ → Except ε Text) (v : Value τ) : Except ε (Value τ) :=
  if v.holdsTemplate then
    match v with
    | .list items => do return .list (← inlinedItems text items)
    | .dict entries => do return .dict (← inlinedEntries text entries)
    | .template t => do return .str (← text t)
    | v => .ok v
  else .ok v

def inlinedItems (text : τ → Except ε Text) : List (Value τ) → Except ε (List (Value τ))
  | [] => .ok []
  | v :: vs => do
    let w ← v.inlined text
    return w :: (← inlinedItems text vs)

def inlinedEntries (text : τ → Except ε Text) :
    List (Text × Value τ) → Except ε (List (Text × Value τ))
  | [] => .ok []
  | (k, v) :: es => do
    let w ← v.inlined text
    return (k, w) :: (← inlinedEntries text es)

end

theorem inlined_of_not_holdsTemplate {text : τ → Except ε Text} {v : Value τ} (h : v.holdsTemplate = false) :
    v.inlined text = .ok v := by
  rw [inlined.eq_def, h]; rfl

mutual

theorem inlined_eq_settle (text : τ → Except ε Text) (v : Value τ) :
    v.inlined text = (v.settle text).map ofData := by
  cases h : v.holdsTemplate with
  | false =>
    obtain ⟨d, rfl⟩ := exists_ofData h
    rw [inlined_of_not_holdsTemplate h, settle_ofData]; rfl
  | true =>
    rw [inlined.eq_def, if_pos h]
    match v with
    | .list items =>
      dsimp only
      rw [settle, inlinedItems_eq_settleItems text items]
      cases settleItems text items <;> rfl
    | .dict es =>
      dsimp only
      rw [settle, inlinedEntries_eq_settleEntries text es]
      cases settleEntries text es <;> rfl
    | .template t =>
      dsimp only
      rw [settle]
      cases text t <;> rfl

theorem inlinedItems_eq_settleItems (text : τ → Except ε Text) (vs : List (Value τ)) :
    inlinedItems text vs = (settleItems text vs).map ofDataItems := by
  match vs with
  | [] => rfl
  | v :: vs =>
    rw [inlinedItems, settleItems, inlined_eq_settle text v, inlinedItems_eq_settleItems text vs]
    cases v.settle text with
    | error e => rfl
    | ok d => cases settleItems text vs <;> rfl

theorem inlinedEntries_eq_settleEntries (text : τ → Except ε Text) (es : List (Text × Value τ)) :
    inlinedEntries text es = (settleEntries text es).map ofDataEntries := by
  match es with
  | [] => rfl
  | (k, v) :: es =>
    rw [inlinedEntries, settleEntries, inlined_eq_settle text v, inlinedEntries_eq_settleEntries text es]
    cases v.settle text with
    | error e => rfl
    | ok d => cases settleEntries text es <;> rfl

end

mutual

/-- The collections of a value: lists with their lengths, dicts with their keys, and nothing in them. -/
def outline : Value τ → Data
  | .list items => .list (outlineItems items)
  | .dict entries => .dict (outlineEntries entries)
  | _ => .null

def outlineItems : List (Value τ) → List Data
  | [] => []
  | v :: vs => v.outline :: outlineItems vs

def outlineEntries : List (Text × Value τ) → List (Text × Data)
  | [] => []
  | (k, v) :: es => (k, v.outline) :: outlineEntries es

end

mutual

theorem outline_ofData_of_settle {text : τ → Except ε Text} {v : Value τ} {d : Data} (h : v.settle text = .ok d) :
    (ofData d : Value τ).outline = v.outline := by
  match v with
  | .null | .bool _ | .int _ | .float _ | .str _ => cases h; rfl
  | .list items =>
    obtain ⟨ds, hds, h⟩ := bind_eq_ok h
    cases h
    rw [ofData, outline, outline, outlineItems_ofDataItems_of_settleItems hds]
  | .dict es =>
    obtain ⟨ds, hds, h⟩ := bind_eq_ok h
    cases h
    rw [ofData, outline, outline, outlineEntries_ofDataEntries_of_settleEntries hds]
  | .template t =>
    obtain ⟨s, -, h⟩ := bind_eq_ok h
    cases h; rfl

theorem outlineItems_ofDataItems_of_settleItems {text : τ → Except ε Text} {vs : List (Value τ)} {ds : List Data}
    (h : settleItems text vs = .ok ds) : outlineItems (ofDataItems ds : List (Value τ)) = outlineItems vs := by
  match vs with
  | [] => cases h; rfl
  | v :: vs =>
    obtain ⟨d, hd, h⟩ := bind_eq_ok h
    obtain ⟨ds, hds, h⟩ := bind_eq_ok h
    cases h
    rw [ofDataItems, outlineItems, outlineItems, outline_ofData_of_settle hd,
      outlineItems_ofDataItems_of_settleItems hds]

theorem outlineEntries_ofDataEntries_of_settleEntries {text : τ → Except ε Text} {es : List (Text × Value τ)}
    {ds : List (Text × Data)} (h : settleEntries text es = .ok ds) :
    outlineEntries (ofDataEntries ds : List (Text × Value τ)) = outlineEntries es := by
  match es with
  | [] => cases h; rfl
  | (k, v) :: es =>
    obtain ⟨d, hd, h⟩ := bind_eq_ok h
    obtain ⟨ds, hds, h⟩ := bind_eq_ok h
    cases h
    rw [ofDataEntries, outlineEntries, outlineEntries, outline_ofData_of_settle hd,
      outlineEntries_ofDataEntries_of_settleEntries hds]

end

end Value

/-! ### Pipelines over all values -/

/-- A host whose user filters answer as `respond` says, `inner` rendering the templates in the answers. -/
def Host.Answers (host inner : Host φ)
    (respond : φ → Value (Template φ) → Option Text → Value (Template φ)) : Prop :=
  ∀ f d arg, host.answer f d arg = (respond f (.ofData d) arg).rendered inner

theorem Host.answers_upTo (observer : Calendar.Observer) (meaning : UserFilters φ) (depth : Nat) :
    (upTo observer meaning (depth + 1)).Answers (upTo observer meaning depth)
      (meaning (upTo observer meaning depth)) :=
  fun _ _ _ => rfl

namespace Pipeline
variable {host inner : Host φ} {user : Entries φ}
  {respond : φ → Value (Template φ) → Option Text → Value (Template φ)}

/-- A value of any kind on its way, and whether its text will be escaped. -/
structure WideState (φ : Type) where
  value : Value (Template φ)
  escape : Bool

def WideState.text (shown : Template φ → Text) (st : WideState φ) : Text :=
  if st.escape then Html.escape (st.value.text shown) else st.value.text shown

/-- One filter on a value of any kind; `shown` is what built-in filters show for templates. -/
def wideStep (observer : Calendar.Observer) (inner : Host φ)
    (respond : φ → Value (Template φ) → Option Text → Value (Template φ)) (shown : Template φ → Text)
    (user : Entries φ) (st : WideState φ) (written : Text) : Except Error (WideState φ) :=
  match FilterCall.ofText? written with
  | none => .ok st
  | some call => match Builtin.ofName? call.name with
    | some b => do
      return ⟨← b.apply observer shown st.value call.arg, st.escape && b.escapes⟩
    | none => match user.get? call.name with
      | some f => do
        return { st with value := ← (respond f st.value call.arg).inlined (Template.render inner) }
      | none => .ok st

/-- The state in which a value of any kind leaves the filters. -/
def wide (host inner : Host φ) (respond : φ → Value (Template φ) → Option Text → Value (Template φ))
    (shown : Template φ → Text) (user : Entries φ) (filters : List Text) (v : Value (Template φ)) :
    Except Error (WideState φ) := do
  filters.foldlM (wideStep host.observer inner respond shown user) ⟨← v.inlined (Template.render host), true⟩

def State.widen (st : State) : WideState φ := ⟨.ofData st.value, st.escape⟩

theorem State.text_widen (shown : Template φ → Text) (st : State) :
    (st.widen : WideState φ).text shown = st.text := by
  rw [WideState.text, State.text, widen, Value.text_ofData]

theorem wideStep_widen (hhost : host.Answers inner respond) (shown : Template φ → Text) (st : State)
    (written : Text) :
    wideStep host.observer inner respond shown user st.widen written =
      (step host user st written).map State.widen := by
  rw [wideStep, step]
  cases FilterCall.ofText? written with
  | none => rfl
  | some call =>
    dsimp only [State.widen]
    cases Builtin.ofName? call.name with
    | some b =>
      dsimp only
      rw [Builtin.apply_ofData]
      cases b.apply host.observer Empty.elim st.value call.arg <;> rfl
    | none =>
      dsimp only
      cases user.get? call.name with
      | none => rfl
      | some f =>
        dsimp only
        rw [Value.inlined_eq_settle, hhost]
        show _ = Except.map State.widen (do
          return { st with value := ← (respond f (.ofData st.value) call.arg).settle (Template.render inner) })
        cases (respond f (.ofData st.value) call.arg).settle (Template.render inner) <;> rfl

theorem wide_eq (hhost : host.Answers inner respond) (shown : Template φ → Text) (filters : List Text)
    (v : Value (Template φ)) :
    wide host inner respond shown user filters v =
      (v.rendered host >>= fun d => filters.foldlM (step host user) ⟨d, true⟩).map State.widen := by
  rw [wide, Value.inlined_eq_settle, Value.rendered]
  cases v.settle (Template.render host) with
  | error e => rfl
  | ok d => exact foldlM_lift (wideStep_widen hhost shown) filters ⟨d, true⟩

end Pipeline

/-- A pipeline fails as the templates in its value do, and otherwise runs over the value with their texts in
their places. Its filters meet no template, whatever user filters answer, so what is shown for one does not
matter. -/
theorem Value.filtered_inlined (host : Host φ) (user : Entries φ) (filters : List Text) (v : Value (Template φ)) :
    (v.filtered host user filters = v.inlined (Template.render host) >>= (filtered host user filters)) ∧
    (∀ w, v.inlined (Template.render host) = .ok w → w.holdsTemplate = false ∧ w.outline = v.outline ∧
      (v.holdsTemplate = false → w = v) ∧ w.inlined (Template.render host) = .ok w) ∧
    ∀ inner respond, host.Answers inner respond → ∀ shown : Template φ → Text,
      (∀ before, before <+: filters → ∀ st, Pipeline.wide host inner respond shown user before v = .ok st →
        st.value.holdsTemplate = false) ∧
      (Pipeline.wide host inner respond shown user filters v).map (Pipeline.WideState.text shown) =
        v.filtered host user filters := by
  refine ⟨?_, fun w hw => ?_, fun inner respond hhost shown => ⟨fun before _ st hst => ?_, ?_⟩⟩
  · rw [inlined_eq_settle, filtered, rendered]
    cases v.settle (Template.render host) with
    | error e => rfl
    | ok d =>
      show Pipeline.run host user filters d = filtered host user filters (ofData d)
      rw [filtered, rendered, settle_ofData]; rfl
  · have hclean : ∃ d, v.settle (Template.render host) = .ok d ∧ ofData d = w :=
      map_eq_ok (inlined_eq_settle _ v ▸ hw)
    obtain ⟨d, hd, rfl⟩ := hclean
    refine ⟨holdsTemplate_ofData d, outline_ofData_of_settle hd, fun hv => ?_,
      inlined_of_not_holdsTemplate (holdsTemplate_ofData d)⟩
    exact (Except.ok.inj ((inlined_of_not_holdsTemplate hv).symm.trans hw)).symm
  · rw [Pipeline.wide_eq hhost] at hst
    obtain ⟨inside, -, rfl⟩ := map_eq_ok hst
    exact holdsTemplate_ofData inside.value
  · rw [Pipeline.wide_eq hhost, filtered]
    cases v.rendered host with
    | error e => rfl
    | ok d =>
      show Except.map _ (Except.map _ (filters.foldlM (Pipeline.step host user) ⟨d, true⟩)) =
        Pipeline.run host user filters d
      rw [Pipeline.run]
      cases filters.foldlM (Pipeline.step host user) ⟨d, true⟩ with
      | error e => rfl
      | ok st => exact congrArg Except.ok (Pipeline.State.text_widen shown st)

/-- User filters that are documents: they answer with the value and a template that has the value as `v`. -/
def UserFilters.documents : UserFilters Text := fun _ source v _ =>
  .list [v, .template ⟨source, Template.inline, [("v".toList, v)], []⟩]

/-- A template in the value and one in an answer; a failure that the next filter would have dropped. -/
theorem Value.answered_by_template :
    let meaning := UserFilters.documents
    let host := Host.upTo Host.bare.observer meaning 1
    let user : Entries Text := [("twice".toList, "{{v.0|raw}}!".toList)]
    let bold : Template Text := ⟨"{{k}}".toList, Template.inline, [("k".toList, .str "<b>".toList)], []⟩
    let fails : Template Text := ⟨"{{k|each(1)}}".toList, Template.inline, [("k".toList, .int 1)], []⟩
    let v : Value (Template Text) := .list [.template bold, .null]
    let w : Value (Template Text) := .list [.str "&lt;b&gt;".toList, .null]
    (v.inlined (Template.render host) = .ok w ∧ w.holdsTemplate = false ∧ w.outline = v.outline) ∧
      (∀ shown, (Pipeline.wide host (Host.upTo Host.bare.observer meaning 0)
          (meaning (Host.upTo Host.bare.observer meaning 0)) shown user ["twice".toList, "raw".toList] v).map
            (Pipeline.WideState.text shown) = .ok "[[\"&lt;b&gt;\",null],\"&lt;b&gt;!\"]".toList) ∧
      (Value.list [.null, .template fails]).filtered host user ["blank".toList] =
        .error (.notRows "integer".toList) := by
  intro meaning host user bold fails v w
  have hbold : bold.render host = .ok "&lt;b&gt;".toList := by decide +kernel
  have hw : v.inlined (Template.render host) = .ok w := by
    rw [inlined_eq_settle]
    simp only [v, settle, settleItems, hbold]
    rfl
  obtain ⟨-, hinlined, hwide⟩ := filtered_inlined host user ["twice".toList, "raw".toList] v
  obtain ⟨hclean, hsame, -⟩ := hinlined w hw
  refine ⟨⟨hw, hclean, hsame⟩, fun shown => ?_, ?_⟩
  · exact (hwide _ _ (Host.answers_upTo Host.bare.observer meaning 0) shown).2.trans (by decide +kernel)
  · decide +kernel

end Stencil
