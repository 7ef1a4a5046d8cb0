import Stencil.Proofs.Escaping

/-! # Texts as they are

A call of `raw` or `html` lets the text of a pipeline out as it is, and does nothing else: wherever it
stands, the other filters see the same values and fail alike (`filtered_without_raw`). Two runs that
differ in the escaping only stay so to their end (`step_unescaped`). -/

namespace Stencil
open Text
variable {φ : Type}

namespace Pipeline
variable {host : Host φ} {user : Entries φ}

/-- Whether a filter is a call of `raw` or `html`. -/
def asksRaw (written : Text) : Bool :=
  (FilterCall.ofText? written).any fun call => call.name == Builtin.raw.name || call.name == Builtin.html.name

/-- The same value, whose text will go out as it is. -/
def State.unescaped (st : State) : State := { st with escape := false }

/-- No filter looks at the escaping. -/
theorem step_unescaped (st : State) (written : Text) :
    step host user st.unescaped written = (step host user st written).map State.unescaped := by
  rw [step, step]
  cases FilterCall.ofText? written with
  | none => rfl
  | some call =>
    dsimp only
    cases Builtin.ofName? call.name with
    | some b =>
      dsimp only [State.unescaped]
      cases b.apply host.observer Empty.elim st.value call.arg <;> rfl
    | none =>
      dsimp only
      cases user.get? call.name with
      | none => rfl
      | some f =>
        dsimp only [State.unescaped]
        cases host.answer f st.value call.arg <;> rfl

/-- The names belong to the built-in filters, whatever users register. -/
theorem step_of_asksRaw {written : Text} (st : State) (h : asksRaw written = true) :
    step host user st written = .ok st.unescaped := by
  rw [asksRaw] at h
  rw [step]
  cases hcall : FilterCall.ofText? written with
  | none => rw [hcall] at h; cases h
  | some call =>
    rw [hcall, Option.any_some, Bool.or_eq_true, beq_iff_eq, beq_iff_eq] at h
    obtain ⟨b, hb, hraw, happly⟩ : ∃ b, Builtin.ofName? call.name = some b ∧ b.escapes = false ∧
        b.apply host.observer Empty.elim st.value call.arg = .ok st.value := by
      rcases h with h | h
      · exact ⟨.raw, by rw [h]; decide, rfl, rfl⟩
      · exact ⟨.html, by rw [h]; decide, rfl, rfl⟩
    simp only [hb, happly, hraw, Bool.and_false]
    rfl

theorem escape_foldlM {st out : State} {filters : List Text}
    (hfilters : ∀ written ∈ filters, asksRaw written = false)
    (h : filters.foldlM (step host user) st = .ok out) : out.escape = st.escape := by
  refine foldlM_keeps (P := fun next => next.escape = st.escape) (fun acc written next hm hacc hnext => ?_) rfl h
  rw [escape_step ?_ hnext, hacc]
  have hquiet := hfilters written hm
  rw [asksRaw] at hquiet
  cases hcall : FilterCall.ofText? written with
  | none => rfl
  | some call => simpa [hcall] using hquiet

/-- The two runs part at the call, and from there on differ in the escaping only. -/
theorem run_without_raw {before after : List Text} {written : Text}
    (hquiet : ∀ w ∈ before ++ after, asksRaw w = false) (hraw : asksRaw written = true) (v : Data) :
    run host user (before ++ after) v = (run host user (before ++ [written] ++ after) v).map Html.escape := by
  rw [run, run, List.append_assoc, List.foldlM_append, List.foldlM_append]
  cases hmiddle : before.foldlM (step host user) ⟨v, true⟩ with
  | error e => rfl
  | ok st =>
    show (do return (← after.foldlM (step host user) st).text) = Except.map Html.escape
      (do return (← (written :: after).foldlM (step host user) st).text)
    rw [List.foldlM_cons, step_of_asksRaw st hraw]
    show _ = Except.map Html.escape (do return (← after.foldlM (step host user) st.unescaped).text)
    rw [foldlM_lift step_unescaped]
    cases hout : after.foldlM (step host user) st with
    | error e => rfl
    | ok out =>
      have hescape : out.escape = true :=
        (escape_foldlM (fun w hw => hquiet w (List.mem_append_right _ hw)) hout).trans
          (escape_foldlM (fun w hw => hquiet w (List.mem_append_left _ hw)) hmiddle)
      show Except.ok out.text = Except.ok (Html.escape out.unescaped.text)
      rw [State.text, State.text, if_pos hescape]
      rfl

end Pipeline

/-- A call of `raw` or `html`, among filters that are no such calls, keeps the text from being escaped
and changes nothing else; without it the text has no markup. -/
theorem Value.filtered_without_raw (host : Host φ) (user : Entries φ) {before after : List Text} {written : Text}
    (hquiet : ∀ w ∈ before ++ after, Pipeline.asksRaw w = false) (hraw : Pipeline.asksRaw written = true)
    (v : Value (Template φ)) :
    v.filtered host user (before ++ after) =
        (v.filtered host user (before ++ [written] ++ after)).map Html.escape ∧
      ∀ text, v.filtered host user (before ++ after) = .ok text → ∀ c ∈ Html.markup, c ∉ text := by
  have heq : v.filtered host user (before ++ after) =
      (v.filtered host user (before ++ [written] ++ after)).map Html.escape := by
    rw [filtered, filtered]
    cases v.rendered host with
    | error e => rfl
    | ok d => exact Pipeline.run_without_raw hquiet hraw d
  refine ⟨heq, fun text htext c hc => ?_⟩
  obtain ⟨plain, -, rfl⟩ := map_eq_ok (heq ▸ htext)
  exact List.count_eq_zero.1 (Html.count_escape hc plain)

/-- Users may register filters under any name; a call of `raw` stays the built-in one. -/
theorem Value.markup_let_out :
    let host : Host Text := ⟨Host.bare.observer, fun shape v _ => .ok (.str (shape ++ v.text))⟩
    let user : Entries Text := [("raw".toList, "never".toList), ("wrap".toList, "<i>".toList)]
    let v : Value (Template Text) := .str "a".toList
    v.filtered host user ["wrap".toList, "raw('x')".toList, "what?".toList] = .ok "<i>a".toList ∧
      v.filtered host user ["wrap".toList, "what?".toList] = .ok "&lt;i&gt;a".toList ∧
      ∀ c ∈ Html.markup, c ∉ "&lt;i&gt;a".toList := by
  intro host user v
  have hothers : ∀ w ∈ ["wrap".toList] ++ ["what?".toList], Pipeline.asksRaw w = false := by decide +kernel
  have hcall : Pipeline.asksRaw "raw('x')".toList = true := by decide +kernel
  obtain ⟨heq, hclean⟩ := filtered_without_raw host user hothers hcall v
  have hraw : v.filtered host user ["wrap".toList, "raw('x')".toList, "what?".toList] = .ok "<i>a".toList := rfl
  have hquiet : v.filtered host user ["wrap".toList, "what?".toList] = .ok "&lt;i&gt;a".toList :=
    heq.trans (congrArg (Except.map Html.escape) hraw)
  exact ⟨hraw, hquiet, hclean _ hquiet⟩

end Stencil
