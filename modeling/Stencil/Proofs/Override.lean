import Stencil.Proofs.Escaping
import Stencil.Proofs.Form
import Stencil.Proofs.LoneBrace
import Stencil.Proofs.Mapping

/-! # Bound values and defaults

A placeholder with a quoted default renders to the default while its key is unbound, and to the value
once a value is bound. This holds exactly if the default has no closing brace
(`render_withDefault_iff`): a lone one ends the placeholder for bindings and not for defaults. -/

namespace Stencil
open Text Placeholder
variable {τ φ : Type}

theorem Value.display_ofData (host : Host φ) (d : Data) :
    (Value.ofData d : Value (Template φ)).display host = d.text := by
  rw [Value.display, Value.text_ofData]

theorem Value.isTemplate_ofData (d : Data) : (Value.ofData d : Value τ).isTemplate = false := by
  cases d with
  | template t => exact t.elim
  | _ => rfl

theorem Value.isNull_ofData (d : Data) : (Value.ofData d : Value τ).isNull = d.isNull := by
  rw [Value.ofData_eq_map, Value.isNull_map]

theorem Value.isEmptyCollection_ofData (d : Data) :
    (Value.ofData d : Value τ).isEmptyCollection = d.isEmptyCollection := by
  rw [Value.ofData_eq_map, Value.isEmptyCollection_map]

theorem Value.filtered_ofData (host : Host φ) (user : Entries φ) (d : Data) :
    (Value.ofData d : Value (Template φ)).filtered host user [] = .ok (Html.escape d.text) := by
  rw [Value.filtered, Value.rendered, Value.settle_ofData]; rfl

theorem Html.isQuote_of_mem_escape {s : Text} {c : Char} (hc : c ∈ escape s) : isQuote c = false := by
  rw [Bool.eq_false_iff]
  intro hquote
  have hmarkup : c ∈ markup := by rcases isQuote_cases hquote with rfl | rfl <;> decide
  exact (isEscaped_escape s).unmarked c hmarkup hc

theorem Document.fillDefaults_escape (s : Text) : fillDefaults (Html.escape s) = Html.escape s := by
  have hcut : cut defaulted (Html.escape s) = (Html.escape s).map .plain :=
    cut_of_never fun v w hvw _ => defaulted_eq_none_of_no_quote fun c hc =>
      Html.isQuote_of_mem_escape (hvw ▸ List.mem_append_right v hc)
  rw [fillDefaults, hcut, Piece.fill_map_plain]

theorem Html.escapeChar_cases (c : Char) : escapeChar c = [c] ∨ ∃ rest, escapeChar c = '&' :: rest := by
  rw [escapeChar, entity?]
  repeat' split
  all_goals first | exact .inl rfl | exact .inr ⟨_, rfl⟩

theorem Document.fillDefaults_ne_newline (s : Text) : fillDefaults ('{' :: s) ≠ ['\n'] := by
  rw [fillDefaults]
  cases h : defaulted ('{' :: s) with
  | none =>
    rw [cut_plain_cons h, Piece.fill_plain]
    exact fun hc => absurd (List.cons.inj hc).1 (by decide)
  | some r =>
    obtain ⟨literal, n⟩ := r
    obtain ⟨hne, hline, hn, -⟩ := of_defaulted_eq_some h
    obtain ⟨c, more, rfl⟩ := List.exists_cons_of_ne_nil hne
    obtain ⟨k, rfl⟩ : ∃ k, n = k + 1 := ⟨n - 1, by omega⟩
    rw [cut_of_match h, Piece.fill_hit, Html.escape_cons, List.append_assoc]
    intro hc
    rcases Html.escapeChar_cases c with hd | ⟨rest, hd⟩
    · rw [hd] at hc
      exact hline ((List.cons.inj hc).1 ▸ List.mem_cons_self)
    · rw [hd] at hc
      exact absurd (List.cons.inj hc).1 (by decide)

theorem fillDefaults_withDefault {key d : Text} {quote : Char} (hkey : IsKey key)
    (hquote : isQuote quote = true) (hne : d ≠ []) (hclean : quote ∉ d) (hline : '\n' ∉ d) :
    Document.fillDefaults (withDefault key quote d) = Html.escape d := by
  have hhead : ∀ c ∈ key, isHead c = true := fun c hc =>
    Form.isHead_of_isPathChar (isPathChar_of_isKeyChar (hkey.chars c hc))
  rw [Document.fillDefaults, cut_withDefault hhead hkey.ne_nil hquote hne hclean hline, Piece.fill_hit,
    Piece.fill_nil, List.append_nil]

theorem render_dict (host : Host φ) (filters : Entries φ) {raw source : Text}
    (h : Placeholder.normalize raw = .ok source) (once : Dict (Template φ)) :
    render host filters raw (.dict once) =
      (Document.substitute host filters false (Template.resolvedEntries host once) source).map
        Document.fillDefaults := by
  rw [render, Template.ofText, h]
  exact Template.renderWith_of_assigned_eq_nil host once rfl

/-- A key and a quoted default. -/
def Form.ofDefault {key : Text} (hkey : IsKey key) (d : Quotation) : Form := ⟨key, hkey, none, [], some d⟩

section Clean
variable (host : Host φ) (filters : Entries φ) {key : Text} (hkey : IsKey key) (d : Quotation)
  (hd : d.inner ≠ [])

include hkey

theorem Form.text_ofDefault : (Form.ofDefault hkey d).text = withDefault key d.quote d.inner := by
  have hdefault : (ofDefault hkey d).default = some d := rfl
  rw [Form.text_eq_withDefault hdefault]
  simp [head, Slot.written, slot, ofDefault]

theorem normalize_withDefault :
    Placeholder.normalize (withDefault key d.quote d.inner) = .ok (withDefault key d.quote d.inner) := by
  rw [← Form.text_ofDefault hkey d]
  exact Form.normalize_of_laidOut (Form.laidOut_text _)

include hd in
theorem render_withDefault_nil :
    render host filters (withDefault key d.quote d.inner) (.dict []) = .ok (Html.escape d.inner) := by
  rw [render_dict host filters (normalize_withDefault hkey d)]
  exact congrArg Except.ok (fillDefaults_withDefault hkey d.isQuote hd d.no_quote d.one_line)

theorem find_withDefault : find (withDefault key d.quote d.inner) key = [withDefault key d.quote d.inner] := by
  have hquote : '}' ≠ d.quote := (ne_of_holds d.isQuote (by decide)).symm
  refine find_braced_headed hkey.ne_nil ?_ ⟨'?' :: '?' :: d.quote :: (d.inner ++ [d.quote]), ?_, fun e he => ?_⟩
  · simp [hkey.not_mem (c := '}') (by decide), hquote, d.no_closing]
  · obtain ⟨c, rest, hc⟩ := List.exists_cons_of_ne_nil hkey.ne_nil
    rw [hc]
    refine skipOne_of_ne fun hblank => hkey.not_mem (c := ' ') (by decide) ?_
    rw [hc, hblank]
    exact List.mem_cons_self
  · obtain rfl := Option.some.inj he
    simp

theorem answer?_withDefault {v : Data} (hnull : v.isNull = false) :
    Document.answer? host filters ((Value.ofData v).map (Template.resolved host))
      (withDefault key d.quote d.inner) = some (.ok (Html.escape v.text)) := by
  have hplaceholder := Form.ofPlaceholder?_text (Form.ofDefault hkey d)
  rw [Form.text_ofDefault] at hplaceholder
  have hpart : Document.resolve? (Form.ofDefault hkey d).slot (.ofData v : Value (Template φ)) =
      some (.ofData v) := by
    show (if (Value.ofData v : Value (Template φ)).isNull then none else some _) = _
    rw [Value.isNull_ofData, hnull]; rfl
  rw [Document.answer?_map_resolved, hplaceholder, Option.bind_some, hpart, Option.map_some]
  exact congrArg some (Value.filtered_ofData host filters v)

theorem substitute_withDefault {v : Data} (hnull : v.isNull = false) (hempty : v.isEmptyCollection = false) :
    Document.substitute host filters false (Template.resolvedEntries host [(key, .ofData v)])
      (withDefault key d.quote d.inner) = .ok (Html.escape v.text) := by
  have hone : Document.substituteOne host filters false ((Value.ofData v).map (Template.resolved host))
      (withDefault key d.quote d.inner) (withDefault key d.quote d.inner) = .ok (Html.escape v.text) := by
    rw [Document.substituteOne, answer?_withDefault host filters hkey d hnull]
    exact congrArg Except.ok (replace_self (braced_ne_nil _))
  rw [Template.resolvedEntries_eq_map, List.map_singleton, Document.substitute_singleton,
    Document.substituteKey_eq host filters (by rw [Value.isTemplate_map, Value.isTemplate_ofData]),
    Value.isEmptyCollection_map, Value.isEmptyCollection_ofData, hempty, find_withDefault hkey d]
  simpa only [Bool.false_eq_true, if_false, List.foldlM_cons, List.foldlM_nil, bind_pure] using hone

theorem render_withDefault_bound {v : Data} (hnull : v.isNull = false) (hempty : v.isEmptyCollection = false) :
    render host filters (withDefault key d.quote d.inner) (.dict [(key, .ofData v)]) =
      .ok (Html.escape v.text) := by
  rw [render_dict host filters (normalize_withDefault hkey d),
    substitute_withDefault host filters hkey d hnull hempty]
  exact congrArg Except.ok (Document.fillDefaults_escape v.text)

end Clean

/-! ### A closing brace in the default -/

section Lone
variable (host : Host φ) (filters : Entries φ) {key d : Text} {quote : Char}

/-- The first closing brace of the default ends the front. -/
theorem exists_spoiled_withDefault (hkey : IsKey key) (hquote : isQuote quote = true) (hmem : '}' ∈ d)
    (hclosed : ¬ closing <:+: d) :
    ∃ front rest, withDefault key quote d = front ++ rest ∧ Spoiled front rest ∧ Sealed rest ∧
      (¬ opening <:+: d → ¬ opening <:+: rest) := by
  have hopen : '{' ≠ quote := (ne_of_holds hquote (by decide)).symm
  have hclose : '}' ≠ quote := (ne_of_holds hquote (by decide)).symm
  obtain ⟨u, w, rfl, hu⟩ := List.eq_append_cons_of_mem hmem
  have hbehind : ∀ {t : Text}, t <:+: w → t <:+: u ++ '}' :: w := fun ht =>
    ht.trans ((List.suffix_cons '}' w).isInfix.trans (List.suffix_append u _).isInfix)
  refine ⟨opening ++ (key ++ '?' :: '?' :: quote :: u) ++ ['}'], w ++ quote :: closing,
    by simp [withDefault, braced], ⟨⟨_, rfl, ?_⟩, fun hhead => ?_⟩, ?_, fun hno => ?_⟩
  · simp [hkey.not_mem (c := '}') (by decide), hclose, hu]
  · cases w with
    | nil => exact hclose (Option.some.inj hhead).symm
    | cons c w =>
      obtain rfl := Option.some.inj hhead
      exact hclosed ⟨u, w, by simp [closing]⟩
  · have hend : Sealed (quote :: closing) := .append_closing (s := [quote]) (by simpa using hclose)
    exact hend.append (fun hin => hclosed (hbehind hin)) fun hhead => hclose (Option.some.inj hhead).symm
  · have hend : '{' ∉ quote :: closing := by simp [closing, hopen]
    rw [List.infix_append_iff_ne_nil]
    rintro (hin | hin | ⟨a, b, -, hb, hab, -, hpre⟩)
    · exact hno (hbehind hin)
    · exact hend (hin.subset List.mem_cons_self)
    · obtain ⟨c, b, rfl⟩ := List.exists_cons_of_ne_nil hb
      have hc : c ∈ opening := by rw [hab]; simp
      obtain rfl : c = '{' := by simpa [opening] using hc
      exact hend (hpre.subset List.mem_cons_self)

theorem Document.substituteKey_of_find_nil {doc : Text} {keep : Bool} {v : Value Outcome}
    (hv : v.isTemplate = false) (h : find doc key = []) :
    substituteKey host filters keep doc (key, v) = .ok doc := by
  rw [substituteKey_eq host filters hv, h, List.foldlM_nil]
  split <;> rfl

theorem Document.substituteKey_of_spoiled {front rest out : Text} {keep : Bool} {v : Value Outcome}
    (hv : v.isTemplate = false) (hkey : '}' ∉ key) (h : Spoiled front rest) (hs : Sealed rest)
    (hout : substituteKey host filters keep (front ++ rest) (key, v) = .ok out) :
    ∃ rest', out = front ++ rest' := by
  rw [substituteKey_eq host filters hv] at hout
  split at hout
  · exact ⟨rest, (Except.ok.inj hout).symm⟩
  rcases h.find_cases hkey hs with hfind | ⟨u, body, -, hb, hfind⟩
  · rw [hfind] at hout
    exact ⟨rest, (Except.ok.inj hout).symm⟩
  · rw [hfind, List.foldlM_cons] at hout
    obtain ⟨doc, hdoc, hout⟩ := bind_eq_ok hout
    obtain rfl := Except.ok.inj hout
    rw [substituteOne] at hdoc
    split at hdoc
    · exact ⟨rest, (Except.ok.inj hdoc).symm⟩
    · obtain ⟨text, -, hdoc⟩ := bind_eq_ok hdoc
      rw [h.replace_eq hb] at hdoc
      exact ⟨_, (Except.ok.inj hdoc).symm⟩

theorem render_withDefault_ne_newline (hkey : IsKey key) (hquote : isQuote quote = true) (hmem : '}' ∈ d)
    (hclosed : ¬ closing <:+: d) (v : Data) :
    render host filters (withDefault key quote d) (.dict [(key, .ofData v)]) ≠ .ok ['\n'] := by
  intro hout
  obtain ⟨front, rest, htext, hspoiled, hsealed, -⟩ := exists_spoiled_withDefault hkey hquote hmem hclosed
  rw [htext] at hout
  cases hsource : Placeholder.normalize (front ++ rest) with
  | error e => rw [render, Template.ofText, hsource] at hout; cases hout
  | ok source =>
    -- loading and binding both keep the front, which begins with a brace
    obtain ⟨rest, rfl, hspoiled, hsealed⟩ := hspoiled.normalize_eq_ok hsealed hsource
    rw [render_dict host filters hsource, Template.resolvedEntries_eq_map, List.map_singleton,
      Document.substitute_singleton] at hout
    obtain ⟨doc, hdoc, hout⟩ := map_eq_ok hout
    obtain ⟨rest', rfl⟩ := Document.substituteKey_of_spoiled host filters
      (by rw [Value.isTemplate_map, Value.isTemplate_ofData]) (hkey.not_mem (by decide)) hspoiled hsealed hdoc
    obtain ⟨s, hs⟩ := hspoiled.head_eq
    rw [hs] at hout
    exact Document.fillDefaults_ne_newline _ hout

/-- With no opening in it, such a default is shown whatever is bound. -/
theorem render_withDefault_lone (hkey : IsKey key) (hquote : isQuote quote = true) (hmem : '}' ∈ d)
    (hclosed : ¬ closing <:+: d) (hopening : ¬ opening <:+: d) (hclean : quote ∉ d) (hline : '\n' ∉ d) (v : Data) :
    render host filters (withDefault key quote d) (.dict [(key, .ofData v)]) = .ok (Html.escape d) := by
  obtain ⟨front, rest, htext, hspoiled, -, hrest⟩ := exists_spoiled_withDefault hkey hquote hmem hclosed
  have hfind : ∀ name : Text, '}' ∉ name → find (withDefault key quote d) name = [] := by
    intro name hname
    rw [htext, hspoiled.find_eq hname]
    exact find_of_no_opening hname (hrest hopening)
  have hsource : Placeholder.normalize (withDefault key quote d) = .ok (withDefault key quote d) := by
    rw [Placeholder.normalize, hfind [] List.not_mem_nil]; rfl
  rw [render_dict host filters hsource, Template.resolvedEntries_eq_map, List.map_singleton,
    Document.substitute_singleton, Document.substituteKey_of_find_nil host filters
      (by rw [Value.isTemplate_map, Value.isTemplate_ofData]) (hfind key (hkey.not_mem (by decide)))]
  exact congrArg Except.ok (fillDefaults_withDefault hkey hquote (List.ne_nil_of_mem hmem) hclean hline)

end Lone

theorem render_withDefault_iff (host : Host φ) (filters : Entries φ) {key d : Text} {quote : Char}
    (hkey : IsKey key) (hquote : isQuote quote = true) (hne : d ≠ []) (hclean : quote ∉ d)
    (hescape : '\\' ∉ d) (hline : '\n' ∉ d) (hclosed : ¬ closing <:+: d) :
    (render host filters (withDefault key quote d) (.dict []) = .ok (Html.escape d) ∧
      ∀ v : Data, v.isNull = false → v.isEmptyCollection = false →
        render host filters (withDefault key quote d) (.dict [(key, .ofData v)]) =
          .ok (Html.escape ((Value.ofData v : Value (Template φ)).display host))) ↔ '}' ∉ d := by
  constructor
  · rintro ⟨-, hbound⟩ hmem
    -- a line end is bound, since escaping leaves it as it is and no default holds one
    refine render_withDefault_ne_newline host filters hkey hquote hmem hclosed (.str ['\n']) ?_
    exact hbound (.str ['\n']) rfl rfl
  · intro hb
    let q : Quotation := ⟨quote, d, hquote, hclean, hescape, hb, hline⟩
    refine ⟨render_withDefault_nil host filters hkey q hne, fun v hnull hempty => ?_⟩
    rw [Value.display_ofData]
    exact render_withDefault_bound host filters hkey q hnull hempty

/-- A value over a plain default; one with a brace stays in its place. -/
theorem plain_default_overridden :
    render Host.bare ([] : Entries Empty) (withDefault "k".toList '"' "n/a".toList)
        (.dict [("k".toList, .str "v".toList)]) = .ok "v".toList ∧
      ¬ ∀ v : Data, v.isNull = false → v.isEmptyCollection = false →
        render Host.bare ([] : Entries Empty) (withDefault "k".toList '"' ('a' :: '}' :: "b".toList))
          (.dict [("k".toList, .ofData v)]) =
            .ok (Html.escape ((Value.ofData v : Value (Template Empty)).display Host.bare)) := by
  have hkey : IsKey "k".toList := by decide
  have hquote : isQuote '"' = true := rfl
  constructor
  · have h := render_withDefault_iff Host.bare ([] : Entries Empty) (d := "n/a".toList) hkey hquote
      (by decide) (by decide) (by decide) (by decide) (by decide)
    exact (h.2 (by decide)).2 (.str "v".toList) rfl rfl
  · intro hbound
    have h := render_withDefault_iff Host.bare ([] : Entries Empty) (d := 'a' :: '}' :: "b".toList) hkey hquote
      (by decide) (by decide) (by decide) (by decide) (by decide)
    exact h.1 ⟨rfl, hbound⟩ (by decide)

end Stencil
