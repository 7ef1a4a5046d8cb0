import Stencil.Proofs.Splicing

/-! # The plain search

A search that tries every place of a text, takes a placeholder where one begins and goes on behind it, is a
relation between the text and its pieces (`Searched`). It has one outcome, which is what the scan that skips
ahead finds (`searched_iff`): what is skipped begins no placeholder, and whatever placeholder begins in the text
lies under a span that was found (`scan_loses_none`). -/

namespace Stencil
open Text Piece

namespace Text

theorem pairwise_idxOf_distinct (ts : List Text) : (distinct ts).Pairwise fun a b => ts.idxOf a < ts.idxOf b := by
  induction ts with
  | nil => exact .nil
  | cons t ts ih =>
    have hne : ∀ a ∈ (distinct ts).filter (· != t), t ≠ a := fun a ha =>
      (bne_iff_ne.1 (List.mem_filter.1 ha).2).symm
    refine List.pairwise_cons.2 ⟨fun a ha => ?_, ((ih.filter _).imp_of_mem fun ha hb hlt => ?_)⟩
    · rw [List.idxOf_cons_self, List.idxOf_cons_ne _ (hne a ha)]
      exact Nat.succ_pos _
    · rw [List.idxOf_cons_ne _ (hne _ ha), List.idxOf_cons_ne _ (hne _ hb)]
      exact Nat.succ_lt_succ hlt

variable {α : Type} {m : Matcher α}

theorem append_cases {t s u w : Text} (h : t ++ s = u ++ w) :
    (∃ v, u = t ++ v ∧ s = v ++ w) ∨ ∃ v, v ≠ [] ∧ t = u ++ v := by
  rcases List.append_eq_append_iff.1 h with ⟨v, hu, hs⟩ | ⟨v, ht, hw⟩
  · exact .inl ⟨v, hu, hs⟩
  · by_cases hv : v = []
    · subst hv
      exact .inl ⟨[], by rw [ht, List.append_nil, List.append_nil], hw.symm⟩
    · exact .inr ⟨v, hv, ht⟩

/-- Where a match begins, a span begins too or has not ended yet. -/
theorem exists_span_of_match {u w : Text} {a : α} {n : Nat} (h : m w = some (a, n + 1)) (hw : w ≠ []) :
    ∃ e ∈ spans (cut m (u ++ w)), e.1.first ≤ utf8Size u ∧ utf8Size u < e.1.past := by
  suffices hfrom : ∀ s, ∀ start u, s = u ++ w → ∃ e ∈ spansFrom start (cut m s),
      e.1.first ≤ start + utf8Size u ∧ start + utf8Size u < e.1.past by
    obtain ⟨e, he, hspan⟩ := hfrom _ 0 u rfl
    rw [Nat.zero_add] at hspan
    exact ⟨e, he, hspan⟩
  intro s
  refine cut_rec (P := fun s ps => ∀ start u, s = u ++ w → ∃ e ∈ spansFrom start ps,
    e.1.first ≤ start + utf8Size u ∧ start + utf8Size u < e.1.past) ?_ ?_ ?_ s
  · intro _ u hs
    exact absurd (List.append_eq_nil_iff.1 hs.symm).2 hw
  · intro c s hno ih start u hs
    cases u with
    | nil => exact absurd (hs ▸ h) (hno a n)
    | cons d u =>
      obtain ⟨rfl, rfl⟩ := List.cons.inj hs
      obtain ⟨e, he, hspan⟩ := ih (start + c.utf8Size) u rfl
      rw [Nat.add_assoc, ← utf8Size_cons] at hspan
      exact ⟨e, he, hspan⟩
  · intro c s b k hk ih start u hs
    have hsplit : c :: s.take k ++ s.drop k = u ++ w := by
      rw [List.cons_append, List.take_append_drop, hs]
    rcases append_cases hsplit with ⟨v, rfl, hrest⟩ | ⟨v, hv, hhit⟩
    · obtain ⟨e, he, hspan⟩ := ih (start + utf8Size (c :: s.take k)) v hrest
      rw [Nat.add_assoc, ← utf8Size_append] at hspan
      exact ⟨e, List.mem_cons_of_mem _ he, hspan⟩
    · obtain ⟨d, v, rfl⟩ := List.exists_cons_of_ne_nil hv
      refine ⟨_, List.mem_cons_self, Nat.le_add_right _ _, ?_⟩
      have := d.utf8Size_pos
      show start + utf8Size u < start + utf8Size (c :: s.take k)
      rw [hhit, utf8Size_append, utf8Size_cons]
      omega

theorem map_slice_spansFrom (front : Text) (ps : List (Piece α)) :
    (spansFrom (utf8Size front) ps).map (fun e => slice e.1.first e.1.past (front ++ texts ps)) = hits ps := by
  induction ps generalizing front with
  | nil => rfl
  | cons p ps ih =>
    cases p with
    | plain c =>
      have hnext := ih (front ++ [c])
      rw [utf8Size_append, List.append_assoc] at hnext
      exact hnext
    | hit a t =>
      have hnext := ih (front ++ t)
      rw [utf8Size_append, List.append_assoc] at hnext
      rw [spansFrom, List.map_cons, texts_hit, hnext, hits_hit, ← utf8Size_append, slice_append]

theorem map_slice_spans (m : Matcher α) (s : Text) :
    (spans (cut m s)).map (fun e => slice e.1.first e.1.past s) = hits (cut m s) := by
  have h := map_slice_spansFrom [] (cut m s)
  rw [texts_cut] at h
  exact h

end Text

namespace Placeholder
variable {s : Text}

/-- A text was searched from left to right, place by place, with these pieces as the outcome. -/
inductive Searched : Text → List (Piece Unit) → Prop
  | done : Searched [] []
  | skip {c s ps} (h : ∀ p r, IsPlaceholder p → c :: s ≠ p ++ r) :
    Searched s ps → Searched (c :: s) (.plain c :: ps)
  | take {p s ps} (h : IsPlaceholder p) : Searched s ps → Searched (p ++ s) (.hit () p :: ps)

theorem anywhere_eq_none_iff : anywhere s = none ↔ ∀ p r, IsPlaceholder p → s ≠ p ++ r := by
  rw [Option.eq_none_iff_forall_ne_some]
  constructor
  · rintro h p r hp rfl
    exact h _ (hp.anywhere_append r)
  · rintro h ⟨⟨⟩, n⟩ hs
    obtain ⟨body, r, rfl, hb, hne, -⟩ := anywhere_eq_some_iff.1 hs
    exact h _ r ⟨body, rfl, hb, hne⟩ rfl

theorem Searched.eq_cut {ps : List (Piece Unit)} (h : Searched s ps) : ps = cut anywhere s := by
  induction h with
  | done => rfl
  | skip hno _ ih => rw [cut_plain_cons (anywhere_eq_none_iff.2 hno), ih]
  | take hp _ ih => rw [cut_hit (hp.anywhere_append _) hp.ne_nil, ih]

theorem searched_cut (s : Text) : Searched s (cut anywhere s) := by
  refine cut_rec (P := Searched) .done ?_ ?_ s
  · intro c s hno ih
    refine .skip (fun p r hp hs => ?_) ih
    have hmatch := hp.anywhere_append r
    obtain ⟨d, p, rfl⟩ := List.exists_cons_of_ne_nil hp.ne_nil
    rw [← hs] at hmatch
    exact hno () p.length hmatch
  · intro c s a n h ih
    have hp : IsPlaceholder (c :: s.take n) :=
      .of_hit (s := c :: s) (a := a) (by rw [cut_of_match h]; exact List.mem_cons_self)
    have htake := Searched.take hp ih
    rwa [List.cons_append, List.take_append_drop] at htake

theorem searched_iff {ps : List (Piece Unit)} : Searched s ps ↔ ps = scan s := by
  rw [scan_eq_cut]
  exact ⟨Searched.eq_cut, fun h => h ▸ searched_cut s⟩

/-- No placeholder begins in front of a closing brace that no second one follows, nor does one with no body. -/
theorem not_placeholder_before_lone {w after : Text} (hw : '}' ∉ w)
    (hlone : w.length ≤ 2 ∨ after.head? ≠ some '}') : ∀ p r, IsPlaceholder p → w ++ '}' :: after ≠ p ++ r := by
  refine anywhere_eq_none_iff.1 (anywhere_eq_none_of_not_closed hw fun body hne hwb r hr => ?_)
  rcases hlone with hlen | hnext
  · have := List.length_pos_iff.2 hne
    rw [hwb, List.length_append] at hlen
    exact absurd hlen (by simp only [opening, List.length_cons, List.length_nil]; omega)
  · exact hnext (by rw [hr]; rfl)

/-- The spans of pieces are the places of placeholders, one behind the other, and under them lies every place
where a placeholder begins. -/
structure Covers (s : Text) (ps : List (Piece Unit)) : Prop where
  ascending : (spans ps).Pairwise fun a b => a.1.past ≤ b.1.first
  sound : ∀ e ∈ spans ps, ∃ u p r, s = u ++ (p ++ r) ∧ IsPlaceholder p ∧ e.1 = ⟨utf8Size u, utf8Size (u ++ p)⟩
  complete : ∀ u p r, s = u ++ (p ++ r) → IsPlaceholder p →
    ∃ e ∈ spans ps, e.1.first ≤ utf8Size u ∧ utf8Size u < e.1.past

theorem covers_scan (s : Text) : Covers s (scan s) := by
  rw [scan_eq_cut]
  refine ⟨pairwise_spansFrom 0 _, fun ⟨span, a⟩ he => ?_, ?_⟩
  · obtain ⟨u, p, r, n, rfl, hmatch, hp, hspan⟩ := match_of_mem_spans he
    obtain ⟨body, rest, htext, hb, hne, rfl⟩ := anywhere_eq_some_iff.1 hmatch
    rw [htext, ← length_braced, List.take_left] at hp
    exact ⟨u, p, r, rfl, ⟨body, hp, hb, hne⟩, by rw [hspan, utf8Size_append]⟩
  · rintro u p r rfl hp
    obtain ⟨n, hn⟩ := Nat.exists_eq_succ_of_ne_zero fun h : p.length = 0 => hp.ne_nil (List.length_eq_zero_iff.1 h)
    have hmatch := hp.anywhere_append r
    rw [hn] at hmatch
    exact exists_span_of_match hmatch (List.append_ne_nil_of_left_ne_nil hp.ne_nil r)

/-- The texts under the spans of a scan. -/
def spanned (s : Text) : List Text := (spans (scan s)).map fun e => slice e.1.first e.1.past s

theorem spanned_eq_hits (s : Text) : spanned s = hits (scan s) := by
  rw [spanned, scan_eq_cut, map_slice_spans]

/-- The scan that skips ahead finds what the plain search finds. No placeholder begins where it skips, be it in
front of a lone closing brace or of none at all; and the placeholders of a text are the texts of its spans,
without repetition and in the order in which they first occur. -/
theorem scan_loses_none (s : Text) :
    (∀ ps, Searched s ps ↔ ps = scan s) ∧ Covers s (scan s) ∧
    (∀ u v w more, s = u ++ (v ++ w) → outlook (v ++ w) = .barren more → v.length ≤ more →
      ∀ p r, IsPlaceholder p → w ≠ p ++ r) ∧
    (∀ u w after, s = u ++ (w ++ '}' :: after) → '}' ∉ w → w.length ≤ 2 ∨ after.head? ≠ some '}' →
      ∀ p r, IsPlaceholder p → w ++ '}' :: after ≠ p ++ r) ∧
    (find s []).Nodup ∧ (∀ p, p ∈ find s [] ↔ p ∈ spanned s) ∧
      (find s []).Pairwise fun a b => (spanned s).idxOf a < (spanned s).idxOf b := by
  rw [spanned_eq_hits]
  refine ⟨fun ps => searched_iff, covers_scan s, ?_, ?_, nodup_distinct _, fun p => mem_distinct,
    pairwise_idxOf_distinct _⟩
  · rintro u v w more rfl houtlook hv
    exact anywhere_eq_none_iff.1 (anywhere_of_outlook_barren houtlook hv)
  · rintro u w after rfl hw hlone
    exact not_placeholder_before_lone hw hlone

/-- A lone closing brace, an empty body, a third opening brace, a third closing brace, and an opening at the end. -/
def crowded : Text :=
  opening ++ ['a', '}', 'é'] ++ opening ++ closing ++ '{' :: braced "b".toList ++ '}' :: braced "b".toList ++
    opening ++ ['c']

/-- The placeholder behind the third opening brace is found under the span of the one that begins there. -/
theorem spans_of_crowded :
    Searched crowded (scan crowded) ∧
    (spans (scan crowded)).map Prod.fst = [⟨10, 16⟩, ⟨17, 22⟩] ∧
    (∃ e ∈ spans (scan crowded), e.1.first ≤ 11 ∧ 11 < e.1.past) ∧
    outlook crowded = .barren 3 ∧ (∀ p r, IsPlaceholder p → crowded.drop 1 ≠ p ++ r) ∧
    find crowded [] = ['{' :: braced "b".toList, braced "b".toList] ∧ (find crowded []).Nodup := by
  obtain ⟨hsearched, hcovers, hskipped, -, hnodup, -⟩ := scan_loses_none crowded
  have hb : IsPlaceholder (braced "b".toList) := ⟨_, rfl, by decide, by decide⟩
  have houtlook : outlook crowded = .barren 3 := by decide
  refine ⟨(hsearched _).2 rfl, by decide +kernel, ?_, houtlook, ?_, by decide +kernel, hnodup⟩
  · exact hcovers.complete (crowded.take 10) _ (crowded.drop 15) (by decide) hb
  · exact hskipped [] (crowded.take 1) (crowded.drop 1) 3 rfl houtlook (by decide)

end Placeholder
end Stencil
