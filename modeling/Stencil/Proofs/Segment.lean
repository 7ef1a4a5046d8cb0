import Stencil.Proofs.Simultaneous

/-! # Segmented documents

A segmented document is a row of literal texts and placeholders without braces inside. Rendering such a
document replaces every placeholder by what is bound to it, once at most and all at the same time
(`renderWith_segmented`). -/

namespace Stencil
open Text Placeholder
variable {φ : Type}

/-- A part of a segmented document. -/
inductive Segment where
  | literal (text : Text) (braceless : Braceless text)
  | placeholder (body : Text) (ne_nil : body ≠ []) (braceless : Braceless body)

namespace Segment

def text : Segment → Text
  | literal t _ => t
  | placeholder body _ _ => braced body

/-- The part once placeholders have their texts. -/
def filled (said : Text → Option Text) : Segment → Text
  | literal t _ => t
  | placeholder body _ _ => (said (braced body)).getD (braced body)

variable {segments : List Segment}

theorem tidy (segments : List Segment) : Tidy (segments.flatMap text) := by
  induction segments with
  | nil => exact .nil
  | cons s segments ih =>
    rw [List.flatMap_cons]
    cases s with
    | literal t ht => exact ih.append ht.no_opening
    | placeholder body hne hb => exact .placeholder hb hne ih

theorem answered_flatMap (said : Text → Option Text) :
    Document.answered said (segments.flatMap text) = segments.flatMap (filled said) := by
  rw [Document.answered]
  induction segments with
  | nil => rfl
  | cons s segments ih =>
    rw [List.flatMap_cons, List.flatMap_cons, ← ih]
    cases s with
    | literal t ht => rw [text, Tidy.cut_of_not_mem ht.no_opening, Piece.fill_append, Piece.fill_map_plain, filled]
    | placeholder body hne hb =>
      rw [text, cut_hit (anywhere_braced hb.no_closing hne _) (braced_ne_nil body), Piece.fill_hit, filled]

theorem mem_find {p : Text} (h : p ∈ Placeholder.find (segments.flatMap text) []) :
    ∃ body hne hb, placeholder body hne hb ∈ segments ∧ p = braced body := by
  rw [mem_find_nil] at h
  induction segments with
  | nil => cases h
  | cons s segments ih =>
    rw [List.flatMap_cons] at h
    cases s with
    | literal t ht =>
      rw [text, Tidy.cut_of_not_mem ht.no_opening, Piece.hits_append, Piece.hits_map_plain, List.nil_append] at h
      obtain ⟨body, hne, hb, hm, hp⟩ := ih h
      exact ⟨body, hne, hb, List.mem_cons_of_mem _ hm, hp⟩
    | placeholder body hne hb =>
      rw [text, cut_hit (anywhere_braced hb.no_closing hne _) (braced_ne_nil body), Piece.hits_hit] at h
      rcases List.mem_cons.1 h with rfl | h
      · exact ⟨body, hne, hb, List.mem_cons_self, rfl⟩
      · obtain ⟨body', hne', hb', hm, hp⟩ := ih h
        exact ⟨body', hne', hb', List.mem_cons_of_mem _ hm, hp⟩

end Segment

/-- The value for a placeholder: bindings for once go before those that a template keeps. -/
def Dict.choose? {τ : Type} (once kept : Dict τ) (p : Text) : Option (Slot × Value τ) :=
  once.resolve? p <|> kept.resolve? p

/-- The text of the value for a placeholder, if it has one. -/
def Dict.chosenText? (host : Host φ) (user : Entries φ) (once kept : Dict (Template φ)) (p : Text) : Option Text :=
  (once.choose? kept p).bind fun r => (r.2.filtered host user r.1.filters).toOption

theorem Dict.answer?_resolvedEntries (host : Host φ) (user : Entries φ) (b : Dict (Template φ)) (p : Text) :
    Dict.answer? host user (Template.resolvedEntries host b) p =
      (b.resolve? p).map fun r => r.2.filtered host user r.1.filters := by
  rw [answer?, Template.resolvedEntries_eq_map, resolve?_map, Option.map_map]
  refine congrArg (Option.map · (b.resolve? p)) (funext fun r => ?_)
  simp only [Function.comp_apply, Document.settled_map_resolved]
  rfl

theorem Document.Simultaneous.of_bound (host : Host φ) (user : Entries φ) {once kept : Dict (Template φ)}
    (honce : once.Plain) (hkept : kept.Plain) :
    Simultaneous (bound host user once kept) fun p =>
      (once.choose? kept p).map fun r => r.2.filtered host user r.1.filters := by
  have pass : ∀ {b : Dict (Template φ)}, b.Plain →
      Simultaneous (substitute host user false (Template.resolvedEntries host b))
        fun p => (b.resolve? p).map fun r => r.2.filtered host user r.1.filters := by
    intro b hb
    refine congr (fun _ => rfl) (fun body _ => Dict.answer?_resolvedEntries host user b _)
      (of_substitute host user ?_)
    rw [Template.resolvedEntries_eq_map]; exact hb.map _
  refine ((pass honce).seq (pass hkept)).congr (fun _ => rfl) fun body _ => ?_
  simp only [Dict.choose?]
  cases once.resolve? (braced body) <;> rfl

/-- Rendering a segmented document: every literal stays, and every placeholder gives way to the text of
the value for it or stays, whatever the order of the bindings. -/
theorem Template.renderWith_segmented (host : Host φ) (t : Template φ) (once : Dict (Template φ))
    (segments : List Segment) (hsource : t.source = segments.flatMap Segment.text) (honce : once.Plain)
    (hkept : Dict.Plain t.assigned)
    (htext : ∀ body hne hb, .placeholder body hne hb ∈ segments → ∀ slot v,
      once.choose? t.assigned (braced body) = some (slot, v) →
        ∃ text, v.filtered host t.filters slot.filters = .ok text ∧ '{' ∉ text) :
    ∀ once' kept', once'.Perm once → kept'.Perm t.assigned →
      Document.bound host t.filters once' kept' t.source =
          .ok (segments.flatMap (Segment.filled (Dict.chosenText? host t.filters once t.assigned))) ∧
        { t with assigned := kept' }.renderWith host (.dict once') =
          .ok (Document.fillDefaults
            (segments.flatMap (Segment.filled (Dict.chosenText? host t.filters once t.assigned)))) := by
  intro once' kept' honce' hkept'
  have hchoose : ∀ p, Dict.choose? once' kept' p = once.choose? t.assigned p := fun p => by
    rw [Dict.choose?, Dict.resolve?_perm honce honce', Dict.resolve?_perm hkept hkept', Dict.choose?]
  have hbound : Document.bound host t.filters once' kept' t.source =
      .ok (segments.flatMap (Segment.filled (Dict.chosenText? host t.filters once t.assigned))) := by
    -- the document is tidy, so both passes give every placeholder its answer at once
    rw [hsource, Document.Simultaneous.of_bound host t.filters (honce.perm honce') (hkept.perm hkept') _
      (Segment.tidy segments), Segment.answered_flatMap]
    · refine congrArg (fun said => Except.ok (segments.flatMap (Segment.filled said))) (funext fun p => ?_)
      rw [Document.said, hchoose, Dict.chosenText?]
      cases once.choose? t.assigned p <;> rfl
    · intro p hp o ho
      obtain ⟨body, hne, hb, hm, rfl⟩ := Segment.mem_find hp
      simp only [hchoose] at ho
      obtain ⟨⟨slot, v⟩, hv, rfl⟩ := Option.map_eq_some_iff.1 ho
      exact htext body hne hb hm slot v hv
  refine ⟨hbound, ?_⟩
  rw [renderWith_dict]
  exact congrArg (Except.map Document.fillDefaults) hbound

/-- A document that greets. -/
def greeting : List Segment :=
  [.literal "Hi ".toList (by decide), .placeholder "title.short|raw".toList (by decide) (by decide),
    .literal " ".toList (by decide), .placeholder "name".toList (by decide) (by decide),
    .placeholder "rest".toList (by decide) (by decide)]

def greetingTemplate : Template Empty where
  source := greeting.flatMap Segment.text
  origin := Template.inline
  assigned := [("title".toList, .dict [("short".toList, .str "D&r".toList)]), ("name".toList, .str "Bo".toList)]
  filters := []

def greetingOnce : Dict (Template Empty) := [("name".toList, .str "<Al>".toList), ("title".toList, .null)]

theorem greeting_rendered : greetingTemplate.renderWith Host.bare (.dict greetingOnce) =
    .ok "Hi D&r &lt;Al&gt;{{rest}}".toList := by
  have htitle : greetingOnce.choose? greetingTemplate.assigned (braced "title.short|raw".toList) =
      some (⟨"title".toList, some "short".toList, ["raw".toList], none⟩, .str "D&r".toList) := rfl
  have hname : greetingOnce.choose? greetingTemplate.assigned (braced "name".toList) =
      some (⟨"name".toList, none, [], none⟩, .str "<Al>".toList) := rfl
  have hrest : greetingOnce.choose? greetingTemplate.assigned (braced "rest".toList) = none := rfl
  have h := (Template.renderWith_segmented Host.bare greetingTemplate greetingOnce greeting rfl
    (by decide) (by decide) (fun body hne hb hm slot v hv => ?_) _ _ (.refl _) (.refl _)).2
  · exact h.trans (congrArg Except.ok (by decide +kernel))
  · simp only [greeting, List.mem_cons, reduceCtorEq, Segment.placeholder.injEq, List.not_mem_nil, false_or,
      or_false] at hm
    rcases hm with rfl | rfl | rfl
    · obtain ⟨rfl, rfl⟩ := Prod.mk.inj (Option.some.inj (htitle.symm.trans hv))
      exact ⟨_, rfl, by decide⟩
    · obtain ⟨rfl, rfl⟩ := Prod.mk.inj (Option.some.inj (hname.symm.trans hv))
      exact ⟨_, rfl, by decide⟩
    · cases hrest.symm.trans hv

end Stencil
