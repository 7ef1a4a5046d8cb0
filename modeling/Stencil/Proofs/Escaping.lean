import Stencil.Proofs.Binding
import Stencil.Proofs.Entities
import Stencil.Proofs.Loading

/-! # Markup comes from the document

As long as no key meets a placeholder with a call of `raw` or `html`, a render puts no character of
markup into the document (`markup_count_le`). The calls in the document as it was written do not settle
this, since later keys read what earlier values brought in (`raw_brought_in`); for a tidy document and
values that open no placeholder they do. -/

namespace Stencil
open Text Placeholder
variable {φ : Type}

theorem map_eq_ok {α β ε : Type} {x : Except ε α} {f : α → β} {b : β} (h : x.map f = .ok b) :
    ∃ a, x = .ok a ∧ f a = b := by
  cases x with
  | error e => cases h
  | ok a => exact ⟨a, rfl, Except.ok.inj h⟩

theorem foldlM_keeps {α β ε : Type} {P : β → Prop} {f : β → α → Except ε β} {xs : List α} {init out : β}
    (step : ∀ acc x next, x ∈ xs → P acc → f acc x = .ok next → P next) (start : P init)
    (h : xs.foldlM f init = .ok out) : P out := by
  induction xs generalizing init with
  | nil => cases h; exact start
  | cons x xs ih =>
    rw [List.foldlM_cons] at h
    obtain ⟨next, hx, h⟩ := bind_eq_ok h
    exact ih (fun acc y next hy => step acc y next (List.mem_cons_of_mem _ hy))
      (step init x next List.mem_cons_self start hx) h

theorem foldlM_lift {α β γ ε : Type} {f : β → α → Except ε β} {g : γ → α → Except ε γ} {lift : β → γ}
    (step : ∀ acc x, g (lift acc) x = (f acc x).map lift) (xs : List α) (init : β) :
    xs.foldlM g (lift init) = (xs.foldlM f init).map lift := by
  induction xs generalizing init with
  | nil => rfl
  | cons x xs ih =>
    rw [List.foldlM_cons, List.foldlM_cons, step]
    cases f init x with
    | error e => rfl
    | ok next => exact ih next

/-- Whether all filter calls of a slot leave its text to be escaped. -/
def Slot.staysEscaped (slot : Slot) : Bool :=
  slot.filters.all fun written => (FilterCall.ofText? written).all fun call =>
    call.name != Builtin.raw.name && call.name != Builtin.html.name

/-- A placeholder without calls of `raw` or `html`; one that cannot be read has no calls. -/
def Placeholder.staysEscaped (p : Text) : Bool := (Slot.ofPlaceholder? p).all Slot.staysEscaped

theorem Builtin.escapes_of_name_ne {name : Text} {b : Builtin} (h : ofName? name = some b)
    (hraw : name ≠ raw.name) (hhtml : name ≠ html.name) : b.escapes = true := by
  rw [ofName?, Option.orElse_eq_orElse, Option.orElse_eq_or, Option.or_eq_some_iff] at h
  rcases h with h | ⟨-, h⟩
  · have hname : b.name = name := by simpa using List.find?_some h
    cases b with
    | html => exact absurd hname.symm hhtml
    | raw => exact absurd hname.symm hraw
    | _ => rfl
  · split at h
    · cases h; rfl
    · cases h

namespace Pipeline
variable {host : Host φ} {user : Entries φ}

theorem escape_step {st st' : State} {written : Text}
    (hcall : (FilterCall.ofText? written).all (fun call =>
      call.name != Builtin.raw.name && call.name != Builtin.html.name) = true)
    (h : step host user st written = .ok st') : st'.escape = st.escape := by
  rw [step] at h
  cases hw : FilterCall.ofText? written with
  | none => rw [hw] at h; cases h; rfl
  | some call =>
    rw [hw] at h hcall
    obtain ⟨hraw, hhtml⟩ : call.name ≠ Builtin.raw.name ∧ call.name ≠ Builtin.html.name := by simpa using hcall
    cases hb : Builtin.ofName? call.name with
    | some b =>
      simp only [hb] at h
      obtain ⟨v, -, h⟩ := bind_eq_ok h
      cases h
      simp [Builtin.escapes_of_name_ne hb hraw hhtml]
    | none =>
      simp only [hb] at h
      cases hf : user.get? call.name with
      | none => rw [hf] at h; cases h; rfl
      | some f =>
        rw [hf] at h
        obtain ⟨v, -, h⟩ := bind_eq_ok h
        cases h; rfl

theorem escaped_of_run {slot : Slot} {v : Data} {text : Text} (hslot : slot.staysEscaped = true)
    (h : run host user slot.filters v = .ok text) : ∃ s, text = Html.escape s := by
  obtain ⟨st, hst, h⟩ := bind_eq_ok h
  have hescape : st.escape = true :=
    foldlM_keeps (P := fun st => st.escape = true)
      (fun acc written next hm hacc hnext => by
        rw [escape_step (List.all_eq_true.1 hslot written hm) hnext, hacc]) rfl hst
  cases h
  exact ⟨st.value.text, by rw [State.text, if_pos hescape]⟩

end Pipeline

namespace Document
variable {host : Host φ} {user : Entries φ}

/-- Every binding but those of empty collections, applied to what the bindings before it left, finds
placeholders only whose texts are escaped. -/
def KeepsEscaping (host : Host φ) (user : Entries φ) : Dict Outcome → Text → Prop
  | [], _ => True
  | (key, v) :: b, doc =>
    (v.isEmptyCollection = false → ∀ p ∈ Placeholder.find doc key, staysEscaped p = true) ∧
      ∀ next, substituteKey host user false doc (key, v) = .ok next → KeepsEscaping host user b next

theorem escaped_of_answer {v : Value Outcome} {p text : Text} (hp : staysEscaped p = true)
    (h : answer? host user v p = some (.ok text)) : ∃ s, text = Html.escape s := by
  simp only [answer?, Option.bind_eq_bind, Option.bind_eq_some_iff] at h
  obtain ⟨slot, hslot, part, -, h⟩ := h
  rw [staysEscaped, hslot] at hp
  obtain ⟨d, -, hrun⟩ := bind_eq_ok (Option.some.inj h)
  exact Pipeline.escaped_of_run hp hrun

theorem count_substituteOne_le {v : Value Outcome} {doc p next : Text} {c : Char} (hc : c ∈ Html.markup)
    (hp : staysEscaped p = true) (h : substituteOne host user false v doc p = .ok next) :
    next.count c ≤ doc.count c := by
  rw [substituteOne] at h
  cases ho : answer? host user v p with
  | none => rw [ho] at h; cases h; exact Nat.le_refl _
  | some o =>
    rw [ho] at h
    obtain ⟨text, rfl, h⟩ := bind_eq_ok h
    cases h
    obtain ⟨s, rfl⟩ := escaped_of_answer hp ho
    exact count_replace_le (by simp [Html.count_escape hc])

theorem count_substituteKey_le {key : Text} {v : Value Outcome} {doc next : Text} {c : Char}
    (hv : v.isTemplate = false) (hc : c ∈ Html.markup)
    (hfind : v.isEmptyCollection = false → ∀ p ∈ Placeholder.find doc key, staysEscaped p = true)
    (h : substituteKey host user false doc (key, v) = .ok next) : next.count c ≤ doc.count c := by
  rw [substituteKey_eq host user hv] at h
  split at h
  · cases h; exact Nat.le_refl _
  · next hempty =>
    exact foldlM_keeps (P := fun d => d.count c ≤ doc.count c) (fun acc p d hp hacc hd =>
      (count_substituteOne_le hc (hfind (Bool.eq_false_iff.2 hempty) p hp) hd).trans hacc) (Nat.le_refl _) h

theorem count_substitute_le {b : Dict Outcome} {doc out : Text} {c : Char} (hb : ∀ e ∈ b, e.2.isTemplate = false)
    (hc : c ∈ Html.markup) (hkeep : KeepsEscaping host user b doc)
    (h : substitute host user false b doc = .ok out) : out.count c ≤ doc.count c := by
  induction b generalizing doc with
  | nil => cases h; exact Nat.le_refl _
  | cons e b ih =>
    obtain ⟨hfind, hnext⟩ := hkeep
    rw [substitute, List.foldlM_cons] at h
    obtain ⟨next, hkey, h⟩ := bind_eq_ok h
    exact (ih (fun d hd => hb d (List.mem_cons_of_mem _ hd)) (hnext next hkey) h).trans
      (count_substituteKey_le (hb e List.mem_cons_self) hc hfind hkey)

theorem count_fillDefaults_le {c : Char} (hc : c ∈ Html.markup) (doc : Text) :
    (fillDefaults doc).count c ≤ doc.count c := by
  conv_rhs => rw [← texts_cut Placeholder.defaulted doc]
  exact Piece.count_fill_le fun a t _ => by simp [Html.count_escape hc]

/-! ### Tidy documents -/

/-- A tidy document with no placeholder but those of `source`. -/
structure Within (source doc : Text) : Prop where
  tidy : Tidy doc
  old : ∀ p ∈ Placeholder.find doc [], p ∈ Placeholder.find source []

theorem Within.substituteOne {source doc p next : Text} {v : Value Outcome} (h : Within source doc)
    (hp : p ∈ Placeholder.find source []) (htext : ∀ text, answer? host user v p = some (.ok text) → '{' ∉ text)
    (hsource : Tidy source) (hnext : substituteOne host user false v doc p = .ok next) : Within source next := by
  rw [Document.substituteOne] at hnext
  cases ho : answer? host user v p with
  | none => rw [ho] at hnext; cases hnext; exact h
  | some o =>
    rw [ho] at hnext
    obtain ⟨text, rfl, hnext⟩ := bind_eq_ok hnext
    cases hnext
    obtain ⟨body, rfl, hbody⟩ := hsource.exists_braced hp
    have hbrace : ∀ q ∈ Placeholder.find doc [], ∀ t,
        (if q = braced body then some text else none) = some t → '{' ∉ t := by
      intro q _ t ht
      split at ht
      · cases ht; exact htext text ho
      · cases ht
    show Within source (replace (braced body) text doc)
    rw [h.tidy.replace_eq hbody.no_closing]
    exact ⟨h.tidy.answered hbrace, fun q hq => h.old q ((h.tidy.mem_find_answered hbrace).1 hq).1⟩

theorem Within.mem_find {source doc key p : Text} (h : Within source doc) (hsource : Tidy source) (hkey : '}' ∉ key)
    (hp : p ∈ Placeholder.find doc key) : p ∈ Placeholder.find source key := by
  obtain ⟨hdoc, htouches⟩ := (h.tidy.mem_find hkey).1 hp
  exact (hsource.mem_find hkey).2 ⟨h.old p hdoc, htouches⟩

/-- What a binding needs so that it opens no placeholder: it is passed over, or its key holds no closing brace and
no text that it has for a placeholder of its key in the source holds an opening one. -/
def OpensNone (host : Host φ) (user : Entries φ) (source : Text) (e : Text × Value Outcome) : Prop :=
  e.2.isEmptyCollection = false → '}' ∉ e.1 ∧
    ∀ p ∈ Placeholder.find source e.1, ∀ text, answer? host user e.2 p = some (.ok text) → '{' ∉ text

theorem Within.substituteKey {source doc next : Text} {e : Text × Value Outcome} (h : Within source doc)
    (hv : e.2.isTemplate = false) (hopens : OpensNone host user source e) (hsource : Tidy source)
    (hnext : substituteKey host user false doc e = .ok next) : Within source next := by
  obtain ⟨key, v⟩ := e
  rw [substituteKey_eq host user hv] at hnext
  split at hnext
  · cases hnext; exact h
  · next hempty =>
    obtain ⟨hkey, htext⟩ := hopens (Bool.eq_false_iff.2 hempty)
    refine foldlM_keeps (P := Within source) (fun acc p next hp hacc hnext => ?_) h hnext
    have hold := h.mem_find hsource hkey hp
    exact hacc.substituteOne ((hsource.mem_find hkey).1 hold).1 (htext p hold) hsource hnext

/-- Where values open no placeholder, the calls in the source are all calls. -/
theorem keepsEscaping_of_within {source doc : Text} {b : Dict Outcome} (hsource : Tidy source)
    (hescaped : ∀ p ∈ Placeholder.find source [], staysEscaped p = true)
    (hb : ∀ e ∈ b, e.2.isTemplate = false) (hopens : ∀ e ∈ b, OpensNone host user source e)
    (h : Within source doc) : KeepsEscaping host user b doc := by
  induction b generalizing doc with
  | nil => trivial
  | cons e b ih =>
    have he := hopens e List.mem_cons_self
    refine ⟨fun hempty p hp => ?_, fun next hnext => ?_⟩
    · exact hescaped p (h.old p ((h.tidy.mem_find (he hempty).1).1 hp).1)
    · exact ih (fun d hd => hb d (List.mem_cons_of_mem _ hd)) (fun d hd => hopens d (List.mem_cons_of_mem _ hd))
        (h.substituteKey (hb e List.mem_cons_self) he hsource hnext)

theorem answer?_map_resolved (v : Value (Template φ)) (p : Text) :
    answer? host user (v.map (Template.resolved host)) p =
      (Slot.ofPlaceholder? p).bind fun slot =>
        (resolve? slot v).map fun part => part.filtered host user slot.filters := by
  rw [answer?]
  cases Slot.ofPlaceholder? p with
  | none => rfl
  | some slot =>
    simp only [Option.bind_eq_bind, Option.bind_some, resolve?_map]
    cases resolve? slot v with
    | none => rfl
    | some part => simp only [Option.map_some, Option.bind_some, settled_map_resolved]; rfl

theorem opensNone_map_resolved {source key : Text} {v : Value (Template φ)}
    (h : v.isEmptyCollection = false → '}' ∉ key ∧
      ∀ p ∈ Placeholder.find source key, ∀ slot part text, Slot.ofPlaceholder? p = some slot →
        resolve? slot v = some part → part.filtered host user slot.filters = .ok text → '{' ∉ text) :
    OpensNone host user source (key, v.map (Template.resolved host)) := by
  intro hempty
  rw [Value.isEmptyCollection_map] at hempty
  obtain ⟨hkey, htext⟩ := h hempty
  refine ⟨hkey, fun p hp text hans => ?_⟩
  rw [answer?_map_resolved] at hans
  obtain ⟨slot, hslot, hpart⟩ := Option.bind_eq_some_iff.1 hans
  obtain ⟨part, hpart, hfiltered⟩ := Option.map_eq_some_iff.1 hpart
  exact htext p hp slot part text hslot hpart hfiltered

end Document

theorem Template.count_ofText {filters : Entries φ} {origin raw : Text} {t : Template φ} {c : Char}
    (hc : isGap c = false) (h : ofText filters origin raw = .ok t) : t.source.count c = raw.count c := by
  obtain ⟨source, hsource, h⟩ := bind_eq_ok h
  cases h
  exact Placeholder.count_normalizeEach hc hsource

theorem Html.isGap_of_mem_markup {c : Char} (hc : c ∈ markup) : isGap c = false := by
  rcases mem_markup.1 hc with rfl | rfl | rfl | rfl <;> decide

/-- Markup in a rendered text stood in the text that was loaded, as long as no key meets a placeholder with a call of
`raw` or `html`. In a tidy document no key does if the document has no such placeholder, no key holds a closing brace,
and no text that a key has for one of its own placeholders holds an opening one. Keys of empty collections do nothing,
and nothing is asked of them. -/
theorem Template.markup_count_le (host : Host φ) {filters : Entries φ} {origin raw out : Text} {t : Template φ}
    (hload : ofText filters origin raw = .ok t) {once : Dict (Template φ)}
    (hvalues : ∀ e ∈ once, e.2.isTemplate = false) (hout : t.renderWith host (.dict once) = .ok out) :
    (Document.KeepsEscaping host filters (resolvedEntries host once) t.source →
      ∀ c ∈ Html.markup, out.count c ≤ t.source.count c ∧ t.source.count c = raw.count c) ∧
    (Tidy t.source → (∀ p ∈ Placeholder.find t.source [], staysEscaped p = true) →
      (∀ e ∈ once, e.2.isEmptyCollection = false → '}' ∉ e.1 ∧
        ∀ p ∈ Placeholder.find t.source e.1, ∀ slot part text, Slot.ofPlaceholder? p = some slot →
          Document.resolve? slot e.2 = some part → part.filtered host filters slot.filters = .ok text → '{' ∉ text) →
      Document.KeepsEscaping host filters (resolvedEntries host once) t.source) := by
  obtain ⟨source, -, ht⟩ := bind_eq_ok hload
  have hentries : ∀ e ∈ resolvedEntries host once, ∃ d ∈ once, e = (d.1, d.2.map (resolved host)) := by
    intro e he
    rw [resolvedEntries_eq_map] at he
    obtain ⟨d, hd, rfl⟩ := List.mem_map.1 he
    exact ⟨d, hd, rfl⟩
  have hplain : ∀ e ∈ resolvedEntries host once, e.2.isTemplate = false := by
    intro e he
    obtain ⟨d, hd, rfl⟩ := hentries e he
    rw [Value.isTemplate_map]; exact hvalues d hd
  constructor
  · -- each pass in turn: the bindings by the condition on them, the defaults because they are escaped
    intro hkeep c hc
    refine ⟨?_, count_ofText (Html.isGap_of_mem_markup hc) hload⟩
    cases ht
    rw [renderWith_of_assigned_eq_nil host once rfl] at hout
    obtain ⟨doc, hdoc, rfl⟩ := map_eq_ok hout
    exact (Document.count_fillDefaults_le hc doc).trans (Document.count_substitute_le hplain hc hkeep hdoc)
  · intro htidy hescaped hopens
    refine Document.keepsEscaping_of_within htidy hescaped hplain (fun e he => ?_) ⟨htidy, fun p hp => hp⟩
    obtain ⟨d, hd, rfl⟩ := hentries e he
    exact Document.opensNone_map_resolved (hopens d hd)

/-- The braces of an empty collection and those of a value that the document does not ask for are never put in. -/
theorem Template.markup_of_escaped_value :
    let once : Dict (Template Empty) :=
      [("a".toList, .str "<i>".toList), ("b".toList, .dict []), ("c".toList, .str "{{a|raw}}".toList)]
    Document.KeepsEscaping Host.bare [] (resolvedEntries Host.bare once) "{{a}}{{b}}<br>".toList ∧
      ∀ c ∈ Html.markup, "&lt;i&gt;{{b}}<br>".toList.count c ≤ "{{a}}{{b}}<br>".toList.count c := by
  intro once
  have hload : ofText [] inline "{{a}}{{b}}<br>".toList =
      .ok (⟨"{{a}}{{b}}<br>".toList, inline, [], []⟩ : Template Empty) := rfl
  have hout : (⟨"{{a}}{{b}}<br>".toList, inline, [], []⟩ : Template Empty).renderWith Host.bare (.dict once) =
      .ok "&lt;i&gt;{{b}}<br>".toList := rfl
  obtain ⟨hcount, hkeep⟩ := markup_count_le Host.bare hload (by decide) hout
  have htidy : Tidy "{{a}}{{b}}<br>".toList :=
    Tidy.placeholder (show Braceless "a".toList by decide) (by decide)
      (Tidy.placeholder (show Braceless "b".toList by decide) (by decide)
        (Tidy.nil.append (show '\x7b' ∉ "<br>".toList by decide)))
  have hslot : Slot.ofPlaceholder? "{{a}}".toList = some ⟨"a".toList, none, [], none⟩ := rfl
  have hkeeps := hkeep htidy (by decide) fun e he hempty => by
    rcases List.mem_cons.1 he with rfl | he
    · refine ⟨by decide, fun p hp slot part text h1 h2 h3 => ?_⟩
      obtain rfl : p = "{{a}}".toList := List.mem_singleton.1 hp
      obtain rfl := Option.some.inj (hslot.symm.trans h1)
      obtain rfl : Value.str "<i>".toList = part := Option.some.inj h2
      obtain rfl : "&lt;i&gt;".toList = text := Except.ok.inj h3
      decide
    rcases List.mem_cons.1 he with rfl | he
    · cases hempty
    · obtain rfl := List.mem_singleton.1 he
      have hunasked : Placeholder.find "{{a}}{{b}}<br>".toList "c".toList = [] := by decide
      exact ⟨by decide, fun p hp => absurd (hunasked ▸ hp) List.not_mem_nil⟩
  exact ⟨hkeeps, fun c hc => (hcount hkeeps c hc).1⟩

/-- A text without calls of `raw` and `html` that renders with more of some markup than it holds. -/
def Template.Overrun (raw : Text) (once : Dict (Template Empty)) (out : Text) : Prop :=
  ∃ t, ofText [] inline raw = .ok t ∧ (∀ p ∈ Placeholder.find t.source [], staysEscaped p = true) ∧
    t.renderWith Host.bare (.dict once) = .ok out ∧ ∃ c ∈ Html.markup, t.source.count c < out.count c

/-- A value that is a placeholder of a later key; a value that completes one; a key that reaches over
the end of one. -/
theorem Template.raw_brought_in :
    Overrun "{{a}}".toList [("a".toList, .str "{{b|raw}}".toList), ("b".toList, .str "<i>".toList)] "<i>".toList ∧
    Overrun "{{b{{a}}}}".toList [("a".toList, .str "|raw".toList), ("b".toList, .str "<i>".toList)] "<i>".toList ∧
    Overrun ("{{a|x}}|raw".toList ++ closing) [("a|x".toList ++ closing, .str "<i>".toList)] "<i>".toList :=
  ⟨⟨_, rfl, by decide, rfl, '<', by decide, by decide⟩, ⟨_, rfl, by decide, rfl, '<', by decide, by decide⟩,
    ⟨_, rfl, by decide, rfl, '<', by decide, by decide⟩⟩

end Stencil
