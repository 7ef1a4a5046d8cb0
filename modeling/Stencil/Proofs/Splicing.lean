import Stencil.Proofs.Binding
import Stencil.Proofs.Discovery

/-! # Sub-templates in a document

A template that is bound to a key takes the place of spans of the document, which are known before its text
is put in, so that the text is not searched again. The spans hold the placeholders of the key without an
attribute (`keyed_eq_some_iff`), in a loaded document all of them; between them the document stays as it is,
byte for byte (`Piece.fill_eq_overwrite`). A document that is one such placeholder is the sub-template under
another name, however often it is wrapped (`Template.Wraps`). -/

namespace Stencil
open Text Piece

namespace Text

def dropBytes : (n : Nat) → Text → Text
  | 0, s => s
  | _ + 1, [] => []
  | n + 1, c :: s => dropBytes (n + 1 - c.utf8Size) s

def takeBytes : (n : Nat) → Text → Text
  | 0, _ => []
  | _ + 1, [] => []
  | n + 1, c :: s => c :: takeBytes (n + 1 - c.utf8Size) s

/-- The text between two byte offsets. -/
def slice (first past : Nat) (s : Text) : Text := takeBytes (past - first) (dropBytes first s)

/-- The text behind `last` with a new text in place of each span. -/
def overwriteFrom (last : Nat) (new : Text) : List Span → Text → Text
  | [], s => slice last (utf8Size s) s
  | span :: spans, s => slice last span.first s ++ new ++ overwriteFrom span.past new spans s

/-- A text with a new text in place of each span. -/
def overwrite (new : Text) (spans : List Span) (s : Text) : Text := overwriteFrom 0 new spans s

theorem dropBytes_append (u s : Text) : dropBytes (utf8Size u) (u ++ s) = s := by
  induction u with
  | nil => rw [utf8Size_nil, dropBytes]; rfl
  | cons c u ih =>
    obtain ⟨n, hn⟩ := Nat.exists_eq_succ_of_ne_zero c.utf8Size_pos.ne'
    rw [utf8Size_cons, hn, Nat.succ_add, List.cons_append, dropBytes, hn, Nat.succ_eq_add_one, Nat.add_right_comm,
      Nat.add_sub_cancel_left, ih]

theorem takeBytes_append (u s : Text) : takeBytes (utf8Size u) (u ++ s) = u := by
  induction u with
  | nil => rw [utf8Size_nil, takeBytes]
  | cons c u ih =>
    obtain ⟨n, hn⟩ := Nat.exists_eq_succ_of_ne_zero c.utf8Size_pos.ne'
    rw [utf8Size_cons, hn, Nat.succ_add, List.cons_append, takeBytes, hn, Nat.succ_eq_add_one, Nat.add_right_comm,
      Nat.add_sub_cancel_left, ih]

theorem slice_append (u v s : Text) : slice (utf8Size u) (utf8Size (u ++ v)) (u ++ (v ++ s)) = v := by
  rw [slice, dropBytes_append, utf8Size_append, Nat.add_sub_cancel_left, takeBytes_append]

end Text

namespace Piece
variable {α : Type}

theorem fill_eq_overwriteFrom (new front u : Text) (ps : List (Piece α)) :
    u ++ fill (fun _ _ => new) ps = overwriteFrom (utf8Size front) new
      ((spansFrom (utf8Size (front ++ u)) ps).map Prod.fst) (front ++ (u ++ texts ps)) := by
  -- `front` ends with the last hit, and `u` was passed over since and is copied in front of the next one
  induction ps generalizing front u with
  | nil =>
    have hrest := slice_append front u []
    rw [List.append_nil] at hrest
    rw [fill_nil, texts_nil, List.append_nil, spansFrom, List.map_nil, overwriteFrom, hrest]
  | cons p ps ih =>
    cases p with
    | plain c =>
      have hnext := ih front (u ++ [c])
      simp only [← List.append_assoc, utf8Size_append, utf8Size_cons, utf8Size_nil, Nat.add_zero] at hnext
      simpa [spansFrom, Nat.add_assoc] using hnext
    | hit a t =>
      have hnext := ih (front ++ u ++ t) []
      have hcopied := slice_append front u (t ++ texts ps)
      have hsize : utf8Size (front ++ u ++ t) = utf8Size (front ++ u) + utf8Size t := utf8Size_append _ _
      rw [List.nil_append, List.append_nil, hsize, List.nil_append, List.append_assoc, List.append_assoc] at hnext
      rw [fill_hit, texts_hit, spansFrom, List.map_cons, overwriteFrom, hcopied, hnext, List.append_assoc]

theorem fill_eq_overwrite (new : Text) (ps : List (Piece α)) :
    fill (fun _ _ => new) ps = overwrite new ((spans ps).map Prod.fst) (texts ps) :=
  fill_eq_overwriteFrom new [] [] ps

theorem le_first_of_mem {start : Nat} {ps : List (Piece α)} {e : Span × α} (h : e ∈ spansFrom start ps) :
    start ≤ e.1.first := by
  obtain ⟨span, a⟩ := e
  obtain ⟨qs, t, rs, -, rfl⟩ := mem_spansFrom_iff.1 h
  exact Nat.le_add_right _ _

theorem pairwise_spansFrom (start : Nat) (ps : List (Piece α)) :
    (spansFrom start ps).Pairwise fun a b => a.1.past ≤ b.1.first := by
  induction ps generalizing start with
  | nil => exact .nil
  | cons p ps ih =>
    cases p with
    | plain c => exact ih _
    | hit a t => exact List.pairwise_cons.2 ⟨fun e he => le_first_of_mem he, ih _⟩

end Piece

namespace Placeholder
variable {key body s : Text}

/-! ### What a sub-template takes the place of -/

/-- A body that is a key with one blank at most on either side, and then nothing, filters or a default. -/
def Keyed (key body : Text) : Prop := ∃ before after tail, body = before ++ (key ++ (after ++ tail)) ∧
  (before = [] ∨ before = [' ']) ∧ (after = [] ∨ after = [' ']) ∧ IsTail tail

/-- What the matcher makes of the text behind a key, `size` characters being in front of it. -/
def afterKey? (size : Nat) (rest : Text) : Option (Unit × Nat) :=
  if startsWith closing rest then some ((), size + 2) else do
    let next ← rest.head?
    let tail ← if next ∈ ['|', '?'] then untilClosing? rest else none
    if tail < 2 then none else some ((), size + tail + 2)

theorem keyed_eq (key s : Text) : keyed key s = (strip? opening s).bind fun inner =>
    (strip? key (skipOne ' ' inner)).bind fun rest =>
      afterKey? (s.length - (skipOne ' ' rest).length) (skipOne ' ' rest) := rfl

theorem afterKey?_eq_some_iff {size n : Nat} {rest : Text} : afterKey? size rest = some ((), n) ↔
    ∃ tail r, rest = tail ++ closing ++ r ∧ '}' ∉ tail ∧ IsTail tail ∧ n = size + tail.length + 2 := by
  constructor
  · intro h
    rw [afterKey?] at h
    split at h
    · next hclosing =>
      obtain ⟨r, rfl⟩ := startsWith_iff.1 hclosing
      exact ⟨[], r, rfl, List.not_mem_nil, .inl rfl, (Prod.mk.inj (Option.some.inj h)).2.symm⟩
    · obtain ⟨next, hnext, h⟩ := Option.bind_eq_some_iff.1 h
      by_cases hin : next ∈ ['|', '?']
      · simp only [if_pos hin] at h
        obtain ⟨k, hk, h⟩ := Option.bind_eq_some_iff.1 h
        obtain ⟨tail, r, rfl, htail, rfl⟩ := untilClosing?_eq_some_iff.1 hk
        split at h
        · cases h
        · next hlen =>
          refine ⟨tail, r, rfl, htail, .inr ⟨Nat.le_of_not_lt hlen, next, hin, ?_⟩,
            (Prod.mk.inj (Option.some.inj h)).2.symm⟩
          cases tail with
          | nil => exact absurd Nat.zero_lt_two hlen
          | cons c tail => exact hnext
      · simp only [if_neg hin] at h
        cases h
  · rintro ⟨tail, r, rfl, htail, rfl | ⟨hlen, c, hc, hhead⟩, rfl⟩
    · have hclosing : startsWith closing ([] ++ closing ++ r) = true := startsWith_iff.2 ⟨r, rfl⟩
      rw [afterKey?, if_pos hclosing]; rfl
    · obtain ⟨tail, rfl⟩ := List.head?_eq_some_iff.1 hhead
      have hopen : ¬ startsWith closing (c :: tail ++ closing ++ r) = true := by
        rw [startsWith_iff]
        rintro ⟨x, hx⟩
        obtain rfl : c = '}' := (List.cons.inj hx).1
        exact htail List.mem_cons_self
      have hnext : (c :: tail ++ closing ++ r).head? = some c := rfl
      simp only [afterKey?, if_neg hopen, hnext, Option.bind_eq_bind, Option.bind_some, if_pos hc,
        untilClosing?_run htail, if_neg (Nat.not_lt.2 hlen)]

theorem keyed_eq_some_iff (hkey : IsKey key) {n : Nat} : keyed key s = some ((), n) ↔
    ∃ body rest, s = braced body ++ rest ∧ '}' ∉ body ∧ Keyed key body ∧ n = body.length + 4 := by
  rw [keyed_eq]
  constructor
  · intro h
    obtain ⟨inner, hinner, h⟩ := Option.bind_eq_some_iff.1 h
    obtain ⟨rest, hrest, h⟩ := Option.bind_eq_some_iff.1 h
    obtain ⟨tail, r, hr, hclosing, htail, rfl⟩ := afterKey?_eq_some_iff.1 h
    obtain ⟨before, hbefore, hinner'⟩ := exists_gap ' ' inner
    obtain ⟨after, hafter, hrest'⟩ := exists_gap ' ' rest
    have hs : s = braced (before ++ (key ++ (after ++ tail))) ++ r := by
      rw [strip?_eq_some_iff.1 hinner, hinner', strip?_eq_some_iff.1 hrest, hrest', hr, braced]; simp
    have hgap : ∀ gap : Text, gap = [] ∨ gap = [' '] → '}' ∉ gap := by
      rintro gap (rfl | rfl) <;> decide
    refine ⟨_, r, hs, ?_, ⟨before, after, tail, rfl, hbefore, hafter, htail⟩, ?_⟩
    · simp [hgap before hbefore, hgap after hafter, hkey.not_mem (show isKeyChar '}' = false by decide), hclosing]
    · rw [hr, hs]
      simp [closing]
      omega
  · rintro ⟨body, rest, rfl, hb, ⟨before, after, tail, rfl, hbefore, hafter, htail⟩, rfl⟩
    simp only [List.mem_append, not_or] at hb
    obtain ⟨c, k, hk⟩ := List.exists_cons_of_ne_nil hkey.ne_nil
    have hfirst : (key ++ (after ++ (tail ++ closing ++ rest))).head? ≠ some ' ' := by
      rw [hk]
      exact fun h => ne_of_holds (hkey.chars c (hk ▸ List.mem_cons_self)) (by decide) (Option.some.inj h)
    have hnext : (tail ++ closing ++ rest).head? ≠ some ' ' := by
      rcases htail with rfl | ⟨-, d, hd, hhead⟩
      · exact fun h => absurd (Option.some.inj h) (by decide)
      · obtain ⟨tail, rfl⟩ := List.head?_eq_some_iff.1 hhead
        intro h
        obtain rfl : d = ' ' := Option.some.inj h
        exact absurd hd (by decide)
    have hinner : strip? opening (braced (before ++ (key ++ (after ++ tail))) ++ rest) =
        some (before ++ (key ++ (after ++ (tail ++ closing ++ rest)))) := by
      rw [strip?_opening_braced]; simp
    rw [hinner, Option.bind_some, skipOne_append hbefore hfirst, strip?_append, Option.bind_some,
      skipOne_append hafter hnext, afterKey?_eq_some_iff]
    refine ⟨tail, rest, rfl, hb.2.2.2, htail, ?_⟩
    simp [closing]
    omega

theorem whole_keyed (hkey : IsKey key) : Whole (keyed key) := by
  refine whole_of_iff (P := Keyed key) ?_ fun s n => keyed_eq_some_iff hkey
  rintro body ⟨before, after, tail, hbody, -⟩ rfl
  have hnil := (List.append_eq_nil_iff.1 (List.append_eq_nil_iff.1 hbody.symm).2).1
  exact hkey.ne_nil hnil

end Placeholder

namespace Slot.Reads
open Placeholder
variable {body tail : Text} {slot : Slot}

theorem keyed (h : Reads body tail slot) (hattr : slot.attr = none) :
    Keyed slot.key body := by
  refine ⟨[], [], tail, ?_, .inl rfl, .inl rfl, h.isTail⟩
  rw [h.body_eq, written, hattr, Option.elim_none, List.append_nil]
  rfl

end Slot.Reads

namespace Placeholder
variable {key s : Text}

theorem pairwise_keySpans (doc key : Text) : (keySpans doc key).Pairwise fun a b => a.past ≤ b.first :=
  List.pairwise_map.2 (pairwise_spansFrom 0 _)

theorem exists_keyed_of_mem_keySpans {doc : Text} (hkey : IsKey key) {span : Span} (h : span ∈ keySpans doc key) :
    ∃ u body rest, doc = u ++ (braced body ++ rest) ∧ span = ⟨utf8Size u, utf8Size u + utf8Size (braced body)⟩ ∧
      '}' ∉ body ∧ Keyed key body := by
  obtain ⟨⟨span', ⟨⟩⟩, hmem, rfl⟩ := List.mem_map.1 h
  obtain ⟨u, t, r, n, rfl, hmatch, ht, hspan⟩ := match_of_mem_spans hmem
  obtain ⟨body, rest, hbody, hb, hkeyed, rfl⟩ := (keyed_eq_some_iff hkey).1 hmatch
  rw [hbody, ← length_braced, List.take_left] at ht
  obtain rfl : r = rest := by
    rw [ht] at hbody
    exact List.append_cancel_left hbody
  exact ⟨u, body, r, by rw [ht], by rw [← ht]; exact hspan, hb, hkeyed⟩

/-- In a loaded document every placeholder that reads as a slot without an attribute is a span of its key. -/
theorem mem_keySpans_of_loaded {raw doc p : Text} (h : normalize raw = .ok doc) {qs rs : List (Piece Unit)} {a : Unit}
    (hscan : scan doc = qs ++ .hit a p :: rs) {slot : Slot} (hslot : Slot.ofPlaceholder? p = some slot)
    (hattr : slot.attr = none) :
    ⟨utf8Size (texts qs), utf8Size (texts qs) + utf8Size p⟩ ∈ keySpans doc slot.key := by
  rw [scan_eq_cut] at hscan
  have hp : p ∈ find doc [] := mem_find_nil.2 (by rw [hscan]; simp)
  obtain ⟨body, tail, rfl, hb, hreads, hkey⟩ := (loadable_of_mem_find_loaded h hp).exists_reads hslot
  have hmatch : keyed slot.key (braced body) = some ((), body.length + 4) :=
    (keyed_eq_some_iff hkey).2 ⟨body, [], (List.append_nil _).symm, hb, hreads.keyed hattr, rfl⟩
  refine List.mem_map.2 ⟨(_, ()), mem_spansFrom_iff.2 ⟨_, _, _, (whole_keyed hkey).cut_eq_append hscan hmatch, ?_⟩, rfl⟩
  rw [texts_flatMap_within, Nat.zero_add]

end Placeholder

namespace Document

theorem splice_eq_overwrite (key text doc : Text) :
    splice key text doc = overwrite text (Placeholder.keySpans doc key) doc := by
  rw [splice, fill_eq_overwrite, texts_cut]; rfl

theorem splice_braced {key : Text} (hkey : IsKey key) (text : Text) : splice key text (Placeholder.braced key) = text := by
  have hkeyed : Placeholder.Keyed key key := ⟨[], [], [], by simp, .inl rfl, .inl rfl, .inl rfl⟩
  have hcut : cut (Placeholder.keyed key) (Placeholder.braced key) = [.hit () (Placeholder.braced key)] := by
    refine cut_whole (fun s => ?_) (Placeholder.braced_ne_nil key)
    rw [Placeholder.length_braced]
    exact (Placeholder.keyed_eq_some_iff hkey).2 ⟨key, s, rfl, hkey.not_mem (by decide), hkeyed, rfl⟩
  rw [splice, hcut, fill_hit, fill_nil, List.append_nil]

end Document

variable {φ : Type}

/-- A template, or one whose document is a placeholder of a key to which a wrapped template is bound. -/
inductive Template.Wraps (inner : Template φ) : Template φ → Prop
  | refl : Wraps inner inner
  | wrap {outer bound : Template φ} {key : Text} : IsKey key → outer.source = Placeholder.braced key →
    outer.assigned = [(key, .template bound)] → Wraps inner bound → Wraps inner outer

theorem Document.substitute_template_eq (host : Host φ) (user : Entries φ) (keep : Bool) (key doc : Text)
    (inner : Template φ) :
    substitute host user keep (Template.resolvedEntries host [(key, .template inner)]) doc =
      (inner.resolved host).map fun text => splice key text doc := by
  have hentries : Template.resolvedEntries host [(key, .template inner)] = [(key, .template (inner.resolved host))] := by
    simp [Template.resolvedEntries, Template.resolvedValue]
  rw [hentries, substitute_singleton, substituteKey]
  cases inner.resolved host <;> rfl

theorem Template.substitute_braced (host : Host φ) (user : Entries φ) (keep : Bool) {key : Text} (hkey : IsKey key)
    (inner : Template φ) :
    Document.substitute host user keep (resolvedEntries host [(key, .template inner)]) (Placeholder.braced key) =
      inner.resolved host := by
  rw [Document.substitute_template_eq]
  cases inner.resolved host with
  | error e => rfl
  | ok text => exact congrArg Except.ok (Document.splice_braced hkey text)

theorem Template.Wraps.resolved_eq (host : Host φ) {inner outer : Template φ} (h : Wraps inner outer) :
    outer.resolved host = inner.resolved host := by
  induction h with
  | refl => rfl
  | @wrap outer bound key hkey hsource hassigned _ ih =>
    obtain ⟨source, origin, assigned, filters⟩ := outer
    obtain rfl : source = Placeholder.braced key := hsource
    obtain rfl : assigned = [(key, .template bound)] := hassigned
    rw [Template.resolved, substitute_braced host filters false hkey, ih]

/-- The spans of a key, and what becomes of a document when a template is bound to the key: its text stands in
place of each span and is not searched again. A placeholder of the key alone is the template itself. -/
theorem Document.substitute_template (host : Host φ) (user : Entries φ) (keep : Bool) {key : Text} (hkey : IsKey key)
    (inner : Template φ) (doc : Text) :
    substitute host user keep (Template.resolvedEntries host [(key, .template inner)]) doc =
      (inner.resolved host).map (fun text => overwrite text (Placeholder.keySpans doc key) doc) ∧
    (Placeholder.keySpans doc key).Pairwise (fun a b => a.past ≤ b.first) ∧
    (∀ span ∈ Placeholder.keySpans doc key, ∃ u body rest, doc = u ++ (Placeholder.braced body ++ rest) ∧
      span = ⟨utf8Size u, utf8Size u + utf8Size (Placeholder.braced body)⟩ ∧ '}' ∉ body ∧ Placeholder.Keyed key body) ∧
    (∀ raw, Placeholder.normalize raw = .ok doc → ∀ qs p rs, Placeholder.scan doc = qs ++ .hit () p :: rs →
      ∀ slot, Slot.ofPlaceholder? p = some slot → slot.key = key → slot.attr = none →
        ⟨utf8Size (texts qs), utf8Size (texts qs) + utf8Size p⟩ ∈ Placeholder.keySpans doc key) ∧
    ∀ bound outer : Template φ, Template.Wraps inner bound → outer.source = Placeholder.braced key →
      (outer.assigned = [] → outer.renderWith host (.dict [(key, .template bound)]) = inner.render host) ∧
      (outer.assigned = [(key, .template bound)] → outer.render host = inner.render host) := by
  refine ⟨?_, Placeholder.pairwise_keySpans doc key, fun span => Placeholder.exists_keyed_of_mem_keySpans hkey, ?_, ?_⟩
  · rw [substitute_template_eq]
    simp only [splice_eq_overwrite]
  · rintro raw h qs p rs hscan slot hslot rfl hattr
    exact Placeholder.mem_keySpans_of_loaded h hscan hslot hattr
  · intro bound outer hbound hsource
    constructor
    · intro hassigned
      rw [Template.renderWith_of_assigned_eq_nil host _ hassigned, hsource,
        Template.substitute_braced host outer.filters false hkey, hbound.resolved_eq]
      rfl
    · intro hassigned
      rw [Template.render, (Template.Wraps.wrap hkey hsource hassigned hbound).resolved_eq]
      rfl

def Template.byline : Template Empty := ⟨Placeholder.braced "k".toList ++ ['<'], inline, [], []⟩

/-- The placeholder of a key, to which a template is bound for good. -/
def Template.wrapped (key : Text) (bound : Template Empty) : Template Empty :=
  ⟨Placeholder.braced key, inline, [(key, .template bound)], []⟩

/-- A loaded document with two placeholders for the template, and one that asks for a part of it. -/
def Template.signed : Text :=
  Placeholder.braced "k|raw".toList ++ Placeholder.braced "k.a".toList ++ Placeholder.braced "k??'d'".toList

theorem Template.byline_spliced :
    Placeholder.normalize signed = .ok signed ∧ ⟨0, 9⟩ ∈ Placeholder.keySpans signed "k".toList ∧
    Document.substitute Host.bare [] false (resolvedEntries Host.bare [("k".toList, .template byline)]) signed =
      .ok (Placeholder.braced "k".toList ++ '<' :: Placeholder.braced "k.a".toList ++
        Placeholder.braced "k".toList ++ ['<']) ∧
    (wrapped "k".toList (wrapped "j".toList byline)).render Host.bare = byline.render Host.bare ∧
    (⟨Placeholder.braced "k".toList, inline, [], []⟩ : Template Empty).renderWith Host.bare
        (.dict [("k".toList, .template (wrapped "j".toList byline))]) = .ok (Placeholder.braced "k".toList ++ ['<']) := by
  have hkey : IsKey "k".toList := by decide
  have hloaded : Placeholder.normalize signed = .ok signed := by decide +kernel
  have hscan : Placeholder.scan signed = [] ++ .hit () (Placeholder.braced "k|raw".toList) ::
      [.hit () (Placeholder.braced "k.a".toList), .hit () (Placeholder.braced "k??'d'".toList)] := by decide +kernel
  have hslot : Slot.ofPlaceholder? (Placeholder.braced "k|raw".toList) = some ⟨"k".toList, none, ["raw".toList], none⟩ := by
    decide +kernel
  have hwraps : Wraps byline (wrapped "j".toList byline) := .wrap (by decide) rfl rfl .refl
  obtain ⟨hspliced, -, -, hspans, hwrapping⟩ := Document.substitute_template Host.bare [] false hkey byline signed
  obtain ⟨-, hkept⟩ := hwrapping _ (wrapped "k".toList (wrapped "j".toList byline)) hwraps rfl
  obtain ⟨honce, -⟩ := hwrapping _ (⟨Placeholder.braced "k".toList, inline, [], []⟩ : Template Empty) hwraps rfl
  exact ⟨hloaded, hspans signed hloaded _ _ _ hscan _ hslot rfl rfl, hspliced.trans (by decide +kernel), hkept rfl,
    (honce rfl).trans (by decide +kernel)⟩

end Stencil
