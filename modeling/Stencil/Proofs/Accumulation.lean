import Stencil.Proofs.Discovery
import Stencil.Proofs.Segment

/-! # Rows that accumulate

With `keep`, a binding puts its texts in front of its placeholders and leaves them in the document, for
further calls. In a document whose placeholders hold no braces, what stands in place of a placeholder is
then its `Progress`: the texts of the calls so far, and the placeholder as long as every call kept it. One
pass brings all placeholders of its key one text further (`substitute_grown`), so that the rows of any
number of calls stand in their order (`assignOnce_rows`). -/

namespace Stencil
open Text Placeholder
variable {φ : Type}

namespace Placeholder
variable {α : Type} {m : Matcher α} {body t s : Text}

theorem Whole.eq_none_of_no_opening (hm : Whole m) (h : strip? opening s = none) : m s = none := by
  rw [Option.eq_none_iff_forall_ne_some]
  rintro ⟨a, n⟩ hs
  obtain ⟨p, rest, ⟨b, rfl, -⟩, rfl, -⟩ := hm.takes hs
  rw [strip?_opening_braced] at h
  cases h

theorem Whole.eq_none_of_hollow (hm : Whole m) (s : Text) : m (braced [] ++ s) = none := by
  rw [Option.eq_none_iff_forall_ne_some]
  rintro ⟨a, n⟩ h
  obtain ⟨p, rest, ⟨b, rfl, hb, hne⟩, heq, -⟩ := hm.takes h
  exact hne (braced_append_inj List.not_mem_nil hb heq).1.symm

theorem Whole.cut_braced (hm : Whole m) (hb : Braceless body) :
    cut m (braced body) = (m (braced body)).elim ((braced body).map .plain) fun r => [.hit r.1 (braced body)] := by
  cases h : m (braced body) with
  | none =>
    refine cut_of_never fun v w hvw hw => ?_
    cases v with
    | nil => rw [← show braced body = w from hvw]; exact h
    | cons c v =>
      have hno := no_opening_inside (s := []) hb hvw hw
      rw [List.append_nil] at hno
      exact hm.eq_none_of_no_opening hno
  | some r =>
    obtain ⟨p, rest, hp, heq, hn⟩ := hm.takes h
    obtain ⟨b, rfl, hb', -⟩ := id hp
    rw [← List.append_nil (braced body)] at heq
    obtain ⟨rfl, -⟩ := braced_append_inj hb.no_closing hb' heq
    refine cut_whole (fun s => ?_) hp.ne_nil
    rw [hm.ignores hp, h, ← hn]

theorem Whole.cut_braced_append (hm : Whole m) (hb : Braceless body) (s : Text) :
    cut m (braced body ++ s) = cut m (braced body) ++ cut m s := by
  by_cases hne : body = []
  · subst hne
    have hself : m (braced []) = none := by simpa using hm.eq_none_of_hollow []
    rw [hm.cut_braced hb, hself]
    refine cut_plain fun v w hvw hw => ?_
    cases v with
    | nil => rw [← show braced [] = w from hvw]; exact hm.eq_none_of_hollow s
    | cons c v => exact hm.eq_none_of_no_opening (no_opening_inside hb hvw hw)
  · exact hm.cut_append ⟨body, rfl, hb.no_closing, hne⟩ s

theorem whole_literally (hb : '}' ∉ body) (hne : body ≠ []) : Whole (literally (braced body)) := by
  refine whole_of_iff (P := (· = body)) (fun b h => h ▸ hne) fun s n => ?_
  rw [literally_eq_some_iff]
  constructor
  · rintro ⟨⟨r, rfl⟩, rfl⟩
    exact ⟨body, r, rfl, hb, rfl, length_braced body⟩
  · rintro ⟨b, r, rfl, -, rfl, rfl⟩
    exact ⟨⟨r, rfl⟩, (length_braced b).symm⟩

end Placeholder

/-! ### Documents in parts -/

/-- A literal text or a placeholder, none of them with braces inside. -/
inductive Part where
  | literal (text : Text) (braceless : Braceless text)
  | placeholder (body : Text) (braceless : Braceless body)

/-- How far a placeholder has come: the texts in front of it, and whether it still stands behind them. -/
structure Progress where
  front : Text
  stands : Bool

namespace Progress

def text (p : Text) (g : Progress) : Text := g.front ++ if g.stands then p else []

/-- One more text, if there is one; the placeholder stays only to be kept. -/
def next (keep : Bool) (g : Progress) : Option Text → Progress
  | none => g
  | some t => ⟨g.front ++ t, keep⟩

theorem next_kept (front : Text) (o : Option Text) : next true ⟨front, true⟩ o = ⟨front ++ o.getD [], true⟩ := by
  cases o <;> simp [next]

theorem text_next_last (front p : Text) (o : Option Text) : (next false ⟨front, true⟩ o).text p = front ++ o.getD p := by
  cases o <;> simp [next, text]

end Progress

namespace Part
variable {α : Type} {m : Matcher α} {parts : List Part} {g g' : Text → Progress} {f f' : Text → Text}

/-- The part with something in place of placeholders. -/
def filled (f : Text → Text) : Part → Text
  | literal t _ => t
  | placeholder body _ => f (braced body)

def text : Part → Text := filled id

def grown (g : Text → Progress) : Part → Text := filled fun p => (g p).text p

theorem text_eq_grown (part : Part) : part.text = part.grown fun _ => ⟨[], true⟩ := by
  cases part <;> rfl

/-- No text in front of a placeholder opens one. -/
def Clear (parts : List Part) (g : Text → Progress) : Prop :=
  ∀ body hb, placeholder body hb ∈ parts → '{' ∉ (g (braced body)).front

theorem Clear.tail {part : Part} (h : Clear (part :: parts) g) : Clear parts g :=
  fun body hb hm => h body hb (List.mem_cons_of_mem _ hm)

theorem flatMap_filled_congr (h : ∀ body hb, placeholder body hb ∈ parts → f (braced body) = f' (braced body)) :
    parts.flatMap (filled f) = parts.flatMap (filled f') := by
  refine List.flatMap_congr fun part hm => ?_
  cases part with
  | literal t _ => rfl
  | placeholder body hb => exact h body hb hm

theorem flatMap_grown_congr (h : ∀ body hb, placeholder body hb ∈ parts → g (braced body) = g' (braced body)) :
    parts.flatMap (grown g) = parts.flatMap (grown g') :=
  flatMap_filled_congr fun body hb hm => congrArg (Progress.text _) (h body hb hm)

/-- What a matcher for placeholders finds in a part. -/
def pieces (m : Matcher α) (g : Text → Progress) : Part → List (Piece α)
  | literal t _ => t.map .plain
  | placeholder body _ =>
    (g (braced body)).front.map .plain ++ if (g (braced body)).stands then cut m (braced body) else []

theorem cut_grown (hm : Whole m) (h : Clear parts g) :
    cut m (parts.flatMap (grown g)) = parts.flatMap (pieces m g) := by
  induction parts with
  | nil => rfl
  | cons part parts ih =>
    rw [List.flatMap_cons, List.flatMap_cons, ← ih h.tail]
    cases part with
    | literal t ht => exact cut_of_opens (fun _ => hm.eq_none_of_no_opening) ht.no_opening _
    | placeholder body hb =>
      have hfront := h body hb List.mem_cons_self
      rw [grown, filled, Progress.text, pieces, List.append_assoc, List.append_assoc,
        cut_of_opens (fun _ => hm.eq_none_of_no_opening) hfront]
      cases (g (braced body)).stands with
      | false => rfl
      | true => exact congrArg _ (hm.cut_braced_append hb _)

theorem fill_grown (hm : Whole m) (h : Clear parts g) (f : α → Text → Text) :
    Piece.fill f (cut m (parts.flatMap (grown g))) = parts.flatMap (filled fun p =>
      (g p).front ++ if (g p).stands then (m p).elim p fun r => f r.1 p else []) := by
  rw [cut_grown hm h]
  clear h
  induction parts with
  | nil => rfl
  | cons part parts ih =>
    rw [List.flatMap_cons, List.flatMap_cons, Piece.fill_append, ih]
    cases part with
    | literal t ht => rw [pieces, Piece.fill_map_plain, filled]
    | placeholder body hb =>
      rw [pieces, filled, Piece.fill_append, Piece.fill_map_plain, hm.cut_braced hb]
      cases (g (braced body)).stands with
      | false => rfl
      | true => cases m (braced body) <;> simp

theorem mem_hits_grown (hm : Whole m) (h : Clear parts g) {p : Text} :
    p ∈ Piece.hits (cut m (parts.flatMap (grown g))) ↔
      ∃ body hb, placeholder body hb ∈ parts ∧ p = braced body ∧ (g p).stands = true ∧ (m p).isSome = true := by
  rw [cut_grown hm h]
  clear h
  induction parts with
  | nil => simp
  | cons part parts ih =>
    rw [List.flatMap_cons, Piece.hits_append, List.mem_append, ih]
    cases part with
    | literal t ht => simp [pieces]
    | placeholder body hb =>
      rw [pieces, Piece.hits_append, Piece.hits_map_plain, List.nil_append, hm.cut_braced hb]
      constructor
      · rintro (hp | ⟨b, hb', hmem, hrest⟩)
        · cases hs : (g (braced body)).stands with
          | false => simp [hs] at hp
          | true =>
            cases hr : m (braced body) with
            | none => simp [hs, hr] at hp
            | some r =>
              obtain rfl : p = braced body := by simpa [hs, hr] using hp
              exact ⟨body, hb, List.mem_cons_self, rfl, hs, by rw [hr]; rfl⟩
        · exact ⟨b, hb', List.mem_cons_of_mem _ hmem, hrest⟩
      · rintro ⟨b, hb', hmem, rfl, hs, hr⟩
        rcases List.mem_cons.1 hmem with heq | hmem
        · obtain rfl := (placeholder.inj heq)
          obtain ⟨r, hr⟩ := Option.isSome_iff_exists.1 hr
          exact .inl (by simp [hs, hr])
        · exact .inr ⟨b, hb', hmem, rfl, hs, hr⟩

theorem replace_grown (h : Clear parts g) {body : Text} (hb : Braceless body) (hne : body ≠ [])
    (hstands : (g (braced body)).stands = true) (keep : Bool) (t : Text) :
    replace (braced body) (if keep then t ++ braced body else t) (parts.flatMap (grown g)) =
      parts.flatMap (grown (Function.update g (braced body) ((g (braced body)).next keep (some t)))) := by
  rw [replace, fill_grown (whole_literally hb.no_closing hne) h]
  refine flatMap_filled_congr fun b hb' _ => ?_
  by_cases hbb : b = body
  · subst hbb
    have hself : literally (braced b) (braced b) = some ((), (braced b).length) :=
      literally_eq_some_iff.2 ⟨⟨[], (List.append_nil _).symm⟩, rfl⟩
    rw [hstands, hself, Function.update_self]
    cases keep <;> simp [Progress.text, Progress.next]
  · have hother : literally (braced body) (braced b) = none := literally_eq_none_iff.2 fun r hr =>
      hbb (braced_append_inj hb'.no_closing hb.no_closing ((List.append_nil _).trans hr)).1
    have hne' : braced b ≠ braced body := fun heq => hbb (braced_inj heq)
    rw [hother, Function.update_of_ne hne']
    rfl

end Part

namespace Document
variable (host : Host φ) (user : Entries φ) {keep : Bool} {parts : List Part} {g : Text → Progress} {key : Text}
  {v : Value Outcome}

/-- A turn brings one placeholder further, if it has an answer, and leaves the others where they are. -/
theorem substituteOne_grown (hclear : Part.Clear parts g) {body : Text} (hb : Braceless body) (hne : body ≠ [])
    (hstands : (g (braced body)).stands = true)
    (hans : ∀ o, answer? host user v (braced body) = some o → ∃ t, o = .ok t) :
    substituteOne host user keep v (parts.flatMap (Part.grown g)) (braced body) =
      .ok (parts.flatMap (Part.grown (Function.update g (braced body)
        ((g (braced body)).next keep (said (answer? host user v) (braced body)))))) := by
  rw [substituteOne]
  cases ho : answer? host user v (braced body) with
  | none => rw [said_eq_none ho, Progress.next, Function.update_eq_self]
  | some o =>
    obtain ⟨t, rfl⟩ := hans o ho
    rw [said_eq_some ho, ← Part.replace_grown hclear hb hne hstands]
    rfl

theorem foldlM_grown {ps : List Text} (hclear : Part.Clear parts g) (hstands : ∀ p ∈ ps, (g p).stands = true)
    (hform : ∀ p ∈ ps, ∃ body, p = braced body ∧ Braceless body ∧ body ≠ []) (hnodup : ps.Nodup)
    (hans : ∀ p ∈ ps, ∀ o, answer? host user v p = some o → ∃ t, o = .ok t ∧ '{' ∉ t) :
    ps.foldlM (substituteOne host user keep v) (parts.flatMap (Part.grown g)) =
      .ok (parts.flatMap (Part.grown fun p =>
        if p ∈ ps then (g p).next keep (said (answer? host user v) p) else g p)) := by
  induction ps generalizing g with
  | nil => simp only [List.not_mem_nil, if_false]; rfl
  | cons p ps ih =>
    obtain ⟨hp, hps⟩ := List.nodup_cons.1 hnodup
    obtain ⟨body, rfl, hb, hne⟩ := hform p List.mem_cons_self
    have hothers : ∀ q ∈ ps, q ≠ braced body := fun q hq h => hp (h ▸ hq)
    have hnext := hans _ List.mem_cons_self
    -- the turn of the first placeholder, after which its place is settled
    rw [List.foldlM_cons, substituteOne_grown host user hclear hb hne (hstands _ List.mem_cons_self)
      fun o ho => (hnext o ho).imp fun _ h => h.1]
    refine (ih (g := Function.update g (braced body) _) ?_ (fun q hq => ?_)
      (fun q hq => hform q (List.mem_cons_of_mem _ hq)) hps
      (fun q hq => hans q (List.mem_cons_of_mem _ hq))).trans ?_
    · intro b hb' hmem
      by_cases h : braced b = braced body
      · rw [h, Function.update_self]
        cases ho : answer? host user v (braced body) with
        | none => rw [said_eq_none ho]; exact h ▸ hclear b hb' hmem
        | some o =>
          obtain ⟨t, rfl, ht⟩ := hnext o ho
          rw [said_eq_some ho]
          exact fun hm => (List.mem_append.1 hm).elim (h ▸ hclear b hb' hmem) ht
      · rw [Function.update_of_ne h]; exact hclear b hb' hmem
    · rw [Function.update_of_ne (hothers q hq)]; exact hstands q (List.mem_cons_of_mem _ hq)
    · refine congrArg (fun g => Except.ok (parts.flatMap (Part.grown g))) (funext fun q => ?_)
      by_cases hq : q = braced body
      · subst hq
        rw [if_neg hp, Function.update_self, if_pos List.mem_cons_self]
      · rw [Function.update_of_ne hq]
        simp only [List.mem_cons, hq, false_or]

/-- A binding brings every placeholder that it has a text for one text further. -/
theorem substitute_grown (hkey : IsKey key) (hv : v.isTemplate = false) (hclear : Part.Clear parts g)
    (hstands : ∀ p, (g p).stands = true)
    (hans : ∀ body hb, .placeholder body hb ∈ parts → ∀ o, Dict.answer? host user [(key, v)] (braced body) = some o →
      ∃ t, o = .ok t ∧ '{' ∉ t) :
    substitute host user keep [(key, v)] (parts.flatMap (Part.grown g)) =
      .ok (parts.flatMap (Part.grown fun p =>
        (g p).next keep (said (Dict.answer? host user [(key, v)]) p))) := by
  have hfind : ∀ p, p ∈ Placeholder.find (parts.flatMap (Part.grown g)) key ↔
      ∃ body hb, .placeholder body hb ∈ parts ∧ p = braced body ∧ touches key p = true := by
    intro p
    rw [find_eq_of_ne_nil hkey.ne_nil, mem_distinct, Part.mem_hits_grown (whole_named hkey) hclear]
    simp only [hstands, true_and, touches, List.isEmpty_eq_false_iff.2 hkey.ne_nil, Bool.false_or]
  have hone : ∀ body, Braceless body → Dict.answer? host user [(key, v)] (braced body) =
      if touches key (braced body) = true then
        if v.isEmptyCollection then none else answer? host user v (braced body)
      else none := fun body hb => Dict.answer?_singleton host user hkey hb
  rw [substitute_singleton, substituteKey_eq host user hv]
  cases hempty : v.isEmptyCollection with
  | true =>
    refine congrArg Except.ok (Part.flatMap_grown_congr fun body hb _ => ?_)
    have hnone : Dict.answer? host user [(key, v)] (braced body) = none := by simp [hone body hb, hempty]
    rw [said_eq_none hnone, Progress.next]
  | false =>
    simp only [hempty, Bool.false_eq_true, if_false] at hone ⊢
    rw [foldlM_grown host user hclear (fun p _ => hstands p) ?_ ?_ ?_]
    · refine congrArg Except.ok (Part.flatMap_grown_congr fun body hb hmem => ?_)
      by_cases ht : touches key (braced body) = true
      · rw [if_pos ((hfind _).2 ⟨body, hb, hmem, rfl, ht⟩), said, said, hone body hb, if_pos ht]
      · have hnot : braced body ∉ Placeholder.find (parts.flatMap (Part.grown g)) key := fun h => by
          obtain ⟨_, _, _, _, h⟩ := (hfind _).1 h
          exact ht h
        have hnone : Dict.answer? host user [(key, v)] (braced body) = none := by rw [hone body hb, if_neg ht]
        rw [if_neg hnot, said_eq_none hnone, Progress.next]
    · intro p hp
      obtain ⟨body, hb, -, rfl, ht⟩ := (hfind p).1 hp
      refine ⟨body, rfl, hb, ?_⟩
      rintro rfl
      rw [touches, List.isEmpty_eq_false_iff.2 hkey.ne_nil, Bool.false_or] at ht
      have := (whole_named hkey).eq_none_of_hollow []
      rw [List.append_nil] at this
      rw [this] at ht; cases ht
    · rw [find_eq_of_ne_nil hkey.ne_nil]; exact nodup_distinct _
    · intro p hp o ho
      obtain ⟨body, hb, hmem, rfl, ht⟩ := (hfind p).1 hp
      exact hans body hb hmem o (by rw [hone body hb, if_pos ht, ho])

end Document

/-! ### Rows -/

/-- The text that a value bound to a key gives to a placeholder, if it gives one. -/
def Value.rowText? (host : Host φ) (user : Entries φ) (key : Text) (v : Value (Template φ)) (p : Text) :
    Option Text :=
  (Dict.resolve? [(key, v)] p).bind fun r => (r.2.filtered host user r.1.filters).toOption

/-- What rows and a last value make of a placeholder: the texts in order. Where the last value has no text
for it, the placeholder stays. -/
def Template.rowsText (host : Host φ) (user : Entries φ) (key : Text) (rows : List (Value (Template φ)))
    (last : Value (Template φ)) (p : Text) : Text :=
  rows.flatMap (fun v => (v.rowText? host user key p).getD []) ++ (last.rowText? host user key p).getD p

/-- A value for the rows of a key: neither nothing nor a template, and with a text without braces for every
placeholder of the key that asks for a part which it has. -/
structure Value.IsRow (host : Host φ) (user : Entries φ) (key : Text) (parts : List Part) (v : Value (Template φ)) :
    Prop where
  not_null : v.isNull = false
  not_empty : v.isEmptyCollection = false
  no_template : v.isTemplate = false
  text : ∀ body hb, .placeholder body hb ∈ parts → ∀ slot part, Slot.ofPlaceholder? (braced body) = some slot →
    slot.key = key → Document.resolve? slot v = some part →
      ∃ text, part.filtered host user slot.filters = .ok text ∧ Braceless text

namespace Value
variable {host : Host φ} {user : Entries φ} {key p : Text} {parts : List Part} {v : Value (Template φ)} {slot : Slot}

theorem IsRow.exists_text (h : v.IsRow host user key parts) {body : Text} {hb : Braceless body}
    (hm : .placeholder body hb ∈ parts) {part : Value (Template φ)}
    (hr : Dict.resolve? [(key, v)] (braced body) = some (slot, part)) :
    ∃ text, part.filtered host user slot.filters = .ok text ∧ Braceless text := by
  rw [Dict.resolve?] at hr
  obtain ⟨slot', hslot, hr⟩ := Option.bind_eq_some_iff.1 hr
  obtain ⟨w, hw, hr⟩ := Option.bind_eq_some_iff.1 hr
  rw [Entries.get?, Entries.get?_nil] at hw
  split at hw
  · next hkey =>
    obtain rfl := Option.some.inj hw
    rw [if_neg (by simp [h.not_empty])] at hr
    obtain ⟨part', hpart, hr⟩ := Option.bind_eq_some_iff.1 hr
    obtain ⟨rfl, rfl⟩ := Prod.mk.inj (Option.some.inj hr)
    exact h.text body hb hm slot' part' hslot hkey.symm hpart
  · cases hw

theorem IsRow.not_mem_rowText (h : v.IsRow host user key parts) {body t : Text} {hb : Braceless body}
    (hm : .placeholder body hb ∈ parts) (ht : v.rowText? host user key (braced body) = some t) : '{' ∉ t := by
  obtain ⟨⟨slot, part⟩, hr, ht⟩ := Option.bind_eq_some_iff.1 ht
  obtain ⟨text, htext, hbrace⟩ := h.exists_text hm hr
  simp only [htext, Except.toOption, Option.some.injEq] at ht
  exact ht ▸ hbrace.no_opening

theorem rowText?_of_slot (hslot : Slot.ofPlaceholder? p = some slot) (hkey : slot.key = key) (hattr : slot.attr = none)
    (hnull : v.isNull = false) (hempty : v.isEmptyCollection = false) :
    v.rowText? host user key p = (v.filtered host user slot.filters).toOption := by
  have hresolve : Document.resolve? slot v = some v := by simp [Document.resolve?, hattr, hnull]
  simp [rowText?, Dict.resolve?, hslot, Entries.get?, hkey, hempty, hresolve]

theorem rowText?_of_ne (h : ∀ slot, Slot.ofPlaceholder? p = some slot → slot.key ≠ key) :
    v.rowText? host user key p = none := by
  rw [rowText?, Dict.resolve?]
  cases hslot : Slot.ofPlaceholder? p with
  | none => rfl
  | some slot => simp [Entries.get?, (h slot hslot).symm]

end Value

namespace Template
variable (host : Host φ) {t : Template φ} {key : Text} {parts : List Part} {front : Text → Text}
  {v : Value (Template φ)} {rows : List (Value (Template φ))}

theorem assignOnce_singleton (keep : Bool) (t : Template φ) (v : Value (Template φ)) :
    t.assignOnce host keep (.dict [(key, v)]) =
      (Document.substitute host t.filters keep [(key, v.map (resolved host))] t.source).map fun source =>
        { t with source } := by
  have hentries : resolvedEntries host [(key, v)] = [(key, v.map (resolved host))] := resolvedEntries_eq_map host _
  rw [assignOnce, ← hentries]
  show (Document.substitute host t.filters keep (resolvedEntries host [(key, v)]) t.source >>= _) = _
  cases Document.substitute host t.filters keep (resolvedEntries host [(key, v)]) t.source <;> rfl

theorem assignOnce_grown (hkey : IsKey key) (hrow : v.IsRow host t.filters key parts)
    (hsource : t.source = parts.flatMap (Part.grown fun p => ⟨front p, true⟩))
    (hfront : Part.Clear parts fun p => ⟨front p, true⟩) (keep : Bool) :
    t.assignOnce host keep (.dict [(key, v)]) = .ok { t with
      source := parts.flatMap (Part.grown fun p =>
        (⟨front p, true⟩ : Progress).next keep (v.rowText? host t.filters key p)) } := by
  have hanswer : ∀ p, Dict.answer? host t.filters [(key, v.map (resolved host))] p =
      (Dict.resolve? [(key, v)] p).map fun r => r.2.filtered host t.filters r.1.filters := fun p => by
    rw [← Dict.answer?_resolvedEntries, resolvedEntries_eq_map]; rfl
  have hsaid : ∀ p, Document.said (Dict.answer? host t.filters [(key, v.map (resolved host))]) p =
      v.rowText? host t.filters key p := fun p => by
    rw [Document.said, hanswer, Value.rowText?]
    cases Dict.resolve? [(key, v)] p <;> rfl
  rw [assignOnce_singleton, hsource, Document.substitute_grown host t.filters hkey (by simp [hrow.no_template]) hfront
    (fun _ => rfl) fun body hb hm o ho => ?_]
  · simp only [hsaid]; rfl
  · rw [hanswer] at ho
    obtain ⟨⟨slot, part⟩, hr, rfl⟩ := Option.map_eq_some_iff.1 ho
    obtain ⟨text, htext, hbrace⟩ := hrow.exists_text hm hr
    exact ⟨text, htext, hbrace.no_opening⟩

theorem foldlM_assignOnce (hkey : IsKey key) (hrows : ∀ v ∈ rows, v.IsRow host t.filters key parts)
    (hsource : t.source = parts.flatMap (Part.grown fun p => ⟨front p, true⟩))
    (hfront : Part.Clear parts fun p => ⟨front p, true⟩) :
    rows.foldlM (fun t v => t.assignOnce host true (.dict [(key, v)])) t = .ok { t with
      source := parts.flatMap (Part.grown fun p =>
        ⟨front p ++ rows.flatMap fun v => (v.rowText? host t.filters key p).getD [], true⟩) } ∧
    Part.Clear parts fun p => ⟨front p ++ rows.flatMap fun v => (v.rowText? host t.filters key p).getD [], true⟩ := by
  induction rows generalizing t front with
  | nil =>
    simp only [List.flatMap_nil, List.append_nil, ← hsource]
    exact ⟨by cases t; rfl, hfront⟩
  | cons v rows ih =>
    have hv := hrows v List.mem_cons_self
    have hnext : Part.Clear parts fun p => ⟨front p ++ (v.rowText? host t.filters key p).getD [], true⟩ := by
      intro body hb hm hmem
      rcases List.mem_append.1 hmem with hmem | hmem
      · exact hfront body hb hm hmem
      · cases htext : v.rowText? host t.filters key (braced body) with
        | none => simp [htext] at hmem
        | some text => exact hv.not_mem_rowText hm htext (by simpa [htext] using hmem)
    obtain ⟨hrun, hclear⟩ := @ih { t with
      source := parts.flatMap (Part.grown fun p => ⟨front p ++ (v.rowText? host t.filters key p).getD [], true⟩) }
      _ (fun w hw => hrows w (List.mem_cons_of_mem _ hw)) rfl hnext
    rw [List.foldlM_cons, assignOnce_grown host hkey hv hsource hfront]
    simp only [Progress.next_kept, List.flatMap_cons]
    simp only [List.append_assoc] at hrun hclear
    exact ⟨hrun, hclear⟩

/-- Rows of a key, put in front of its placeholders by one call each, and a last value in their place: all
texts stand in the order of the calls, literals and placeholders of other keys stay as they were. A placeholder
that asks for no attribute gets a text from every value. -/
theorem assignOnce_rows (t : Template φ) (hkey : IsKey key) (hsource : t.source = parts.flatMap Part.text)
    (rows : List (Value (Template φ))) (last : Value (Template φ))
    (hvalues : ∀ v ∈ rows ++ [last], v.IsRow host t.filters key parts) :
    (rows.foldlM (fun t v => t.assignOnce host true (.dict [(key, v)])) t >>= fun t =>
        t.assignOnce host false (.dict [(key, last)])) =
      .ok { t with source := parts.flatMap (Part.filled (rowsText host t.filters key rows last)) } ∧
    (∀ body hb, .placeholder body hb ∈ parts → ∀ slot, Slot.ofPlaceholder? (braced body) = some slot →
      slot.key = key → slot.attr = none →
        ∃ texts : List Text, (rows ++ [last]).map (fun v => v.filtered host t.filters slot.filters) = texts.map .ok ∧
          rowsText host t.filters key rows last (braced body) = texts.flatten) ∧
    ∀ p, (∀ slot, Slot.ofPlaceholder? p = some slot → slot.key ≠ key) →
      rowsText host t.filters key rows last p = p := by
  refine ⟨?_, ?_, ?_⟩
  · have hstart : t.source = parts.flatMap (Part.grown fun _ => ⟨[], true⟩) := by
      rw [hsource]; exact congrArg parts.flatMap (funext Part.text_eq_grown)
    obtain ⟨hrun, hclear⟩ := foldlM_assignOnce host hkey (fun v hv => hvalues v (List.mem_append_left _ hv)) hstart
      fun _ _ _ => List.not_mem_nil
    have hlast : last.IsRow host t.filters key parts := hvalues last (by simp)
    rw [hrun]
    refine (assignOnce_grown (t := { t with source := _ }) host hkey hlast rfl hclear false).trans ?_
    simp only [Part.grown, Progress.text_next_last, List.nil_append]
    rfl
  · intro body hb hm slot hslot hkey' hattr
    have htext : ∀ v ∈ rows ++ [last], ∃ text, v.filtered host t.filters slot.filters = .ok text ∧
        v.rowText? host t.filters key (braced body) = some text := by
      intro v hv
      have hrow := hvalues v hv
      have hpart : Document.resolve? slot v = some v := by simp [Document.resolve?, hattr, hrow.not_null]
      obtain ⟨text, htext, -⟩ := hrow.text body hb hm slot v hslot hkey' hpart
      refine ⟨text, htext, ?_⟩
      rw [Value.rowText?_of_slot hslot hkey' hattr hrow.not_null hrow.not_empty, htext]; rfl
    refine ⟨(rows ++ [last]).map fun v => (v.rowText? host t.filters key (braced body)).getD [], ?_, ?_⟩
    · rw [List.map_map]
      refine List.map_congr_left fun v hv => ?_
      obtain ⟨text, htext, hsome⟩ := htext v hv
      rw [htext, Function.comp_apply, hsome]; rfl
    · obtain ⟨text, -, hsome⟩ := htext last (by simp)
      simp [rowsText, hsome, List.flatMap]
  · intro p hp
    have hnone : ∀ v : Value (Template φ), v.rowText? host t.filters key p = none := fun v => Value.rowText?_of_ne hp
    simp [rowsText, hnone]

/-- A list with two placeholders for a value, one for its first element, one of another key, and braces
around nothing. -/
def listing : List Part :=
  [.literal "<ul>".toList (by decide), .placeholder "k|raw".toList (by decide), .placeholder "k".toList (by decide),
    .placeholder "k.0".toList (by decide), .placeholder [] (by decide), .placeholder "j".toList (by decide)]

def listingTemplate : Template Empty := ⟨listing.flatMap Part.text, inline, [], []⟩

theorem listing_slots {body : Text} {hb : Braceless body} (hm : .placeholder body hb ∈ listing) {slot : Slot}
    (hslot : Slot.ofPlaceholder? (braced body) = some slot) (hkey : slot.key = "k".toList) :
    slot = ⟨"k".toList, none, ["raw".toList], none⟩ ∨ slot = ⟨"k".toList, none, [], none⟩ ∨
      slot = ⟨"k".toList, some "0".toList, [], none⟩ := by
  have hread : ∀ {p : Text} {s : Slot}, Slot.ofPlaceholder? p = some s → Slot.ofPlaceholder? p = some slot → slot = s :=
    fun h h' => Option.some.inj (h'.symm.trans h)
  simp only [listing, List.mem_cons, reduceCtorEq, Part.placeholder.injEq, List.not_mem_nil, false_or, or_false] at hm
  rcases hm with rfl | rfl | rfl | rfl | rfl
  · exact .inl (hread rfl hslot)
  · exact .inr (.inl (hread rfl hslot))
  · exact .inr (.inr (hread rfl hslot))
  · cases hslot
  · obtain rfl := hread (p := braced "j".toList) rfl hslot
    exact absurd hkey (by decide)

theorem listing_filled :
    ([.str "<b>".toList, .list [.int 7]].foldlM (fun t v => t.assignOnce Host.bare true (.dict [("k".toList, v)]))
        listingTemplate >>= fun t => t.assignOnce Host.bare false (.dict [("k".toList, .bool true)])) =
      .ok { listingTemplate with source := ("<ul><b>[7]1&lt;b&gt;[7]17".toList ++ braced "k.0".toList ++ braced [] ++
        braced "j".toList) } := by
  have hrows : ∀ v ∈ [.str "<b>".toList, .list [.int 7]] ++ [.bool true],
      (v : Value (Template Empty)).IsRow Host.bare [] "k".toList listing := by
    intro v hv
    simp only [List.cons_append, List.nil_append, List.mem_cons, List.not_mem_nil, or_false] at hv
    rcases hv with rfl | rfl | rfl <;> refine ⟨rfl, rfl, rfl, fun body hb hm slot part hslot hkey hpart => ?_⟩ <;>
      rcases listing_slots hm hslot hkey with rfl | rfl | rfl <;> cases hpart <;> exact ⟨_, rfl, by decide⟩
  have hsource := (assignOnce_rows Host.bare listingTemplate (show IsKey "k".toList by decide) rfl _ _ hrows).1
  exact hsource.trans (congrArg (fun source => Except.ok { listingTemplate with source }) (by decide +kernel))

end Template
end Stencil
