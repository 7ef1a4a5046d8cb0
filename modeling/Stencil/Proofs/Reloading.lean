import Stencil.Proofs.OpenQuote
import Stencil.Proofs.Rewriting

/-! # Loading a loaded text

What loading leaves loads again, since a placeholder that begins with a word still does when the others have
been rewritten (`Loadable.rewritten`). It loads as the same text exactly if no placeholder in it can be
compressed further (`normalize_again_iff`). Two things can leave one: a replacement that reaches into a longer
placeholder, and horizontal space that stood between a backslash and a quote. -/

namespace Stencil
open Text Piece

namespace Piece
variable {α : Type}

theorem fill_sublist {f : α → Text → Text} {ps : List (Piece α)} (h : ∀ a t, hit a t ∈ ps → (f a t).Sublist t) :
    (fill f ps).Sublist (texts ps) := by
  induction ps with
  | nil => exact .slnil
  | cons p ps ih =>
    have hps := ih fun a t ht => h a t (List.mem_cons_of_mem _ ht)
    cases p with
    | plain c => exact hps.cons_cons c
    | hit a t => exact (h a t List.mem_cons_self).append hps

end Piece

namespace Placeholder

theorem compress_sublist (s : Text) : (compress s).Sublist s := by
  have hpieces : ∀ ps : List (Piece Unit), (ps.flatMap compressed).Sublist (texts ps) := by
    intro ps
    induction ps with
    | nil => exact .slnil
    | cons p ps ih =>
      cases p with
      | plain c =>
        rw [List.flatMap_cons, texts_plain, compressed]
        split
        · exact ih.cons c
        · exact ih.cons_cons c
      | hit a t => exact (List.Sublist.refl t).append ih
  have hs := hpieces (quotePieces s)
  rwa [texts_quotePieces] at hs

theorem quotePieces_closing {s : Text} (hline : '\n' ∉ s) :
    quotePieces (s ++ closing) = quotePieces s ++ [.plain '}', .plain '}'] := by
  rw [quotePieces_eq_iff, scanned_append_mark (by decide) (by rwa [texts_quotePieces]), texts_append,
    texts_quotePieces]
  refine ⟨⟨scanned_quotePieces s, (scanned_mark (by decide)).2 trivial, fun quote hquote _ => ?_⟩, rfl⟩
  exact runLength?_mark hquote (by decide) []

theorem compress_braced_eq {body : Text} (hline : '\n' ∉ body) : compress (braced body) = braced (compress body) := by
  refine compress_braced ?_
  have hclosing : compress closing = closing := by decide
  rw [hclosing]
  show (quotePieces (body ++ closing)).flatMap compressed = _
  rw [quotePieces_closing hline, List.flatMap_append]
  rfl

theorem head?_compress (s : Text) : (compress s).head? = (s.dropWhile isGap).head? := by
  have hfront : compress s = compress (s.dropWhile isGap) := by
    conv_lhs => rw [← List.takeWhile_append_dropWhile (p := isGap) (l := s)]
    exact compress_gap (fun c hc => List.mem_takeWhile_imp hc) _
  rw [hfront]
  cases hd : s.dropWhile isGap with
  | nil => rfl
  | cons c rest =>
    have hc : isGap c = false := by
      have := List.head_dropWhile_not (p := isGap) (l := s) (by rw [hd]; simp)
      simpa [hd] using this
    show ((quotePieces (c :: rest)).flatMap compressed).head? = some c
    rw [quotePieces, quotePiecesFrom]
    split
    · rfl
    · rw [List.flatMap_cons, compressed, hc]; rfl

theorem isWellFormed_braced_iff {body : Text} :
    isWellFormed (braced body) = true ↔ (∃ c, body.head? = some c ∧ isKeyChar c = true) ∧ '\n' ∉ body := by
  have hbody : (strip? opening (braced body)).bind (stripEnd? closing) = some body := by
    rw [braced, List.append_assoc, strip?_append]
    exact stripEnd?_eq_some_iff.2 rfl
  rw [isWellFormed, hbody]
  cases body with
  | nil => simp
  | cons c body => simp [isKeyChar]

/-- A placeholder that can be compressed to one that begins with a word. -/
structure Loadable (p : Text) : Prop where
  isPlaceholder : IsPlaceholder p
  wellFormed : isWellFormed (compress p) = true

theorem loadable_braced_iff {body : Text} : Loadable (braced body) ↔
    '}' ∉ body ∧ '\n' ∉ body ∧ ∃ c, (body.dropWhile isGap).head? = some c ∧ isKeyChar c = true := by
  have hwell : '\n' ∉ body → (isWellFormed (compress (braced body)) = true ↔
      ∃ c, (body.dropWhile isGap).head? = some c ∧ isKeyChar c = true) := by
    intro hline
    rw [compress_braced_eq hline, isWellFormed_braced_iff, head?_compress,
      and_iff_left fun hm => hline ((compress_sublist body).subset hm)]
  constructor
  · rintro ⟨⟨b, hb, hclosing, -⟩, h⟩
    obtain rfl := braced_inj hb
    have hline : '\n' ∉ body := by
      obtain ⟨x, hx⟩ := exists_braced_of_isWellFormed h
      have hcount := count_compress (c := '\n') (by decide) (braced body)
      rw [hx] at h hcount
      have hnone := List.count_eq_zero_of_not_mem (isWellFormed_braced_iff.1 h).2
      simp only [braced, List.count_append, hnone] at hcount
      rw [← List.count_eq_zero]
      omega
    exact ⟨hclosing, hline, (hwell hline).1 h⟩
  · rintro ⟨hclosing, hline, hhead⟩
    refine ⟨⟨body, rfl, hclosing, ?_⟩, (hwell hline).2 hhead⟩
    rintro rfl
    obtain ⟨c, hc, -⟩ := hhead
    cases hc

namespace Loadable
variable {p q : Text} {qs : List Text}

theorem one_line (h : Loadable p) : '\n' ∉ p := by
  obtain ⟨body, rfl, -⟩ := id h.isPlaceholder
  have hline := (loadable_braced_iff.1 h).2.1
  simp [braced, opening, closing, hline]

theorem compress (h : Loadable p) : Loadable (compress p) := by
  obtain ⟨body, rfl, -⟩ := id h.isPlaceholder
  obtain ⟨hclosing, hline, c, hc, hkey⟩ := loadable_braced_iff.1 h
  rw [compress_braced_eq hline]
  have hkept := (compress_sublist body).subset
  refine loadable_braced_iff.2 ⟨fun hm => hclosing (hkept hm), fun hm => hline (hkept hm), c, ?_, hkey⟩
  rw [← head?_compress] at hc
  obtain ⟨rest, hrest⟩ := List.head?_eq_some_iff.1 hc
  have hgap : ¬ isGap c = true := by simp [isGap_of_isPathChar (isPathChar_of_isKeyChar hkey)]
  rw [hrest, List.dropWhile_cons_of_neg hgap]; rfl

theorem replace (hp : Loadable p) (hq : Loadable q) : Loadable (Text.replace q (Placeholder.compress q) p) := by
  rcases hp.isPlaceholder.replace_cases hq.isPlaceholder (Placeholder.compress q) with ⟨u, rfl, hr⟩ | ⟨-, hr⟩
  · rw [hr]
    obtain ⟨v, hv⟩ := hp.isPlaceholder.exists_opening_append hq.isPlaceholder
    obtain ⟨x, rfl, -⟩ := id hq.isPlaceholder
    have hbody : ∀ y : Text, u ++ braced y = braced (v ++ y) := fun y => by
      rw [braced, braced, ← List.append_assoc, ← List.append_assoc, hv]; simp
    have hx : Placeholder.compress (braced x) = braced (Placeholder.compress x) :=
      compress_braced_eq (loadable_braced_iff.1 hq).2.1
    have hc := hq.compress
    rw [hbody] at hp
    rw [hx] at hc ⊢
    rw [hbody]
    obtain ⟨hpclosing, hpline, hphead⟩ := loadable_braced_iff.1 hp
    obtain ⟨hclosing, hline, hhead⟩ := loadable_braced_iff.1 hc
    simp only [List.mem_append, not_or] at hpclosing hpline
    refine loadable_braced_iff.2 ⟨by simp [hpclosing.1, hclosing], by simp [hpline.1, hline], ?_⟩
    -- the first word stands in front of the end that is replaced, or it begins that end
    rw [List.dropWhile_append] at hphead ⊢
    by_cases hgap : (v.dropWhile isGap).isEmpty = true
    · rwa [if_pos hgap]
    · rw [if_neg hgap] at hphead ⊢
      rwa [List.head?_append_of_ne_nil _ fun h0 => hgap (by rw [h0]; rfl)] at hphead ⊢
  · rw [hr]; exact hp

theorem rewritten (hqs : ∀ q ∈ qs, Loadable q) (hp : Loadable p) : Loadable (rewritten qs p) := by
  induction qs generalizing p with
  | nil => exact hp
  | cons q qs ih =>
    exact ih (fun r hr => hqs r (List.mem_cons_of_mem _ hr)) (hp.replace (hqs q List.mem_cons_self))

end Loadable

theorem loadable_of_mem_find {raw t p : Text} (h : normalize raw = .ok t) (hp : p ∈ find raw []) : Loadable p :=
  ⟨.of_mem_find hp, isWellFormed_of_normalizeEach h p hp⟩

/-- The placeholders of a loaded text are those of the raw one, rewritten. -/
theorem mem_find_loaded_iff {raw t p : Text} (h : normalize raw = .ok t) :
    p ∈ find t [] ↔ ∃ q ∈ find raw [], p = rewritten (find raw []) q := by
  have hloads : ∀ q ∈ find raw [], Loadable q := fun q hq => loadable_of_mem_find h hq
  have hcut : cut anywhere t = (cut anywhere raw).map (mapText fun _ q => rewritten (find raw []) q) := by
    conv_lhs => rw [(normalize_eq_fill_iff h).1, scan_eq_cut]
    exact cut_fill (.of_cut fun q hq => (Loadable.rewritten hloads (hloads q hq)).isPlaceholder)
  rw [mem_find_nil, hcut, mem_hits]
  simp only [mem_find_nil, mem_hits, List.mem_map]
  constructor
  · rintro ⟨a, q, hq, hp⟩
    cases q with
    | plain c => cases hp
    | hit b q =>
      obtain ⟨rfl, rfl⟩ := hit.inj hp
      exact ⟨q, ⟨b, hq⟩, rfl⟩
  · rintro ⟨q, ⟨a, hq⟩, rfl⟩
    exact ⟨a, _, hq, rfl⟩

theorem loadable_of_mem_find_loaded {raw t p : Text} (h : normalize raw = .ok t) (hp : p ∈ find t []) : Loadable p := by
  obtain ⟨q, hq, rfl⟩ := (mem_find_loaded_iff h).1 hp
  exact .rewritten (fun r hr => loadable_of_mem_find h hr) (loadable_of_mem_find h hq)

/-! ### Loading again -/

section Again
variable {s t p : Text} {qs : List Text}

theorem exists_normalizeEach_eq_ok (h : ∀ q ∈ qs, isWellFormed (compress q) = true) (s : Text) :
    ∃ out, normalizeEach s qs = .ok out := by
  induction qs generalizing s with
  | nil => exact ⟨s, rfl⟩
  | cons q qs ih =>
    rw [normalizeEach, if_pos (h q List.mem_cons_self)]
    exact ih (fun r hr => h r (List.mem_cons_of_mem _ hr)) _

theorem normalizeEach_of_compressed (h : ∀ q ∈ qs, isWellFormed (compress q) = true)
    (hdone : ∀ q ∈ qs, compress q = q) (s : Text) : normalizeEach s qs = .ok s := by
  induction qs with
  | nil => rfl
  | cons q qs ih =>
    rw [normalizeEach, if_pos (h q List.mem_cons_self), if_pos (hdone q List.mem_cons_self)]
    exact ih (fun r hr => h r (List.mem_cons_of_mem _ hr)) fun r hr => hdone r (List.mem_cons_of_mem _ hr)

theorem replace_compress_sublist (q s : Text) : (replace q (compress q) s).Sublist s := by
  conv_rhs => rw [← texts_cut (literally q) s]
  exact fill_sublist fun a u hu => eq_of_hit_mem_cut_literally hu ▸ compress_sublist q

theorem rewritten_sublist (qs : List Text) (t : Text) : (rewritten qs t).Sublist t := by
  induction qs generalizing t with
  | nil => exact .refl t
  | cons q qs ih => exact (ih _).trans (replace_compress_sublist q t)

theorem rewritten_eq_self_iff : rewritten qs t = t ↔ ∀ q ∈ qs, replace q (compress q) t = t := by
  refine ⟨fun h => ?_, rewritten_of_fixed⟩
  induction qs with
  | nil => simp
  | cons q qs ih =>
    have hstep : rewritten qs (replace q (compress q) t) = t := h
    -- replacements only take away, so that none of them undoes another
    have hfixed : replace q (compress q) t = t := by
      refine (replace_compress_sublist q t).eq_of_length_le ?_
      have hrest := (rewritten_sublist qs (replace q (compress q) t)).length_le
      rwa [hstep] at hrest
    rw [hfixed] at hstep
    exact List.forall_mem_cons.2 ⟨hfixed, ih hstep⟩

theorem normalize_eq_self_iff (h : ∀ p ∈ find t [], Loadable p) :
    normalize t = .ok t ↔ ∀ p ∈ find t [], compress p = p := by
  refine ⟨fun hself p hp => ?_, fun hdone => normalizeEach_of_compressed (fun p hp => (h p hp).wellFormed) hdone t⟩
  have hfill := (normalize_eq_fill_iff hself).1
  -- the text is filled with its own placeholders, and with the rewritten ones
  have hrewritten : rewritten (find t []) p = p := by
    obtain ⟨a, ha⟩ := mem_hits.1 (mem_find_nil.1 hp)
    refine fill_inj (f := fun _ q => rewritten (find t []) q) (g := fun _ q => q)
      (.of_cut fun q hq => (Loadable.rewritten h (h q hq)).isPlaceholder)
      (.of_cut fun q hq => (h q hq).isPlaceholder) ?_ a p ha
    rw [← scan_eq_cut, ← hfill, fill_id, scan_eq_cut, texts_cut]
  have hself := rewritten_eq_self_iff.1 hrewritten p hp
  rwa [replace_self (h p hp).isPlaceholder.ne_nil] at hself

end Again

/-- Horizontal space outside quoted runs. -/
def isBlankPiece : Piece Unit → Bool
  | .plain c => isGap c
  | .hit .. => false

/-- Outside quoted runs no backslash stands before horizontal space. -/
def Steady (ps : List (Piece Unit)) : Prop := ps.IsChain fun p q => p = .plain '\\' → isBlankPiece q = false

instance (ps : List (Piece Unit)) : Decidable (Steady ps) := inferInstanceAs (Decidable (ps.IsChain _))

section Steady
variable {escaped : Bool} {c : Char} {p : Piece Unit} {ps qs : List (Piece Unit)} {s : Text}

/-- A front that no backslash ends is scanned on its own, as long as it leaves no quote open that is closed later. -/
theorem Scanned.append (hps : Scanned escaped ps) (hqs : Scanned false qs)
    (hopen : ∀ quote, isQuote quote = true → leavesOpen quote escaped ps = true → runLength? quote (texts qs) = none)
    (hlast : ps.getLast? ≠ some (.plain '\\')) (hfirst : ps = [] → escaped = false) (hline : '\n' ∉ texts ps) :
    Scanned escaped (ps ++ qs) := by
  induction ps generalizing escaped with
  | nil => rw [hfirst rfl]; exact hqs
  | cons p ps ih =>
    have hlast' : ps.getLast? ≠ some (.plain '\\') := fun h => hlast (by rw [List.getLast?_cons, h]; rfl)
    cases p with
    | plain d =>
      have hline' : '\n' ∉ texts ps := fun hm => hline (List.mem_cons_of_mem _ hm)
      refine ⟨fun hquote hesc => ?_, ih hps.2 (fun quote hquote hleft => hopen quote hquote ?_) hlast' ?_ hline'⟩
      · show runLength? d (texts (ps ++ qs)) = none
        rw [texts_append, runLength?_append_eq_none_iff hline' fun h => hlast' (hps.2.getLast?_texts rfl h)]
        exact ⟨hps.1 hquote hesc, hopen d hquote (by simp [leavesOpen, hesc])⟩
      · simp [leavesOpen, hleft]
      · rintro rfl
        rw [beq_eq_false_iff_ne]
        rintro rfl
        exact hlast rfl
    | hit a t =>
      have hline' : '\n' ∉ texts ps := fun hm => hline (List.mem_append_right _ hm)
      exact ⟨hps.1, hps.2.1, ih hps.2.2 hopen hlast' (fun _ => rfl) hline'⟩

theorem Scanned.drop (hs : Scanned false (ps ++ .plain c :: qs)) (hc : isGap c = true)
    (hlast : ps.getLast? ≠ some (.plain '\\')) (hline : '\n' ∉ texts ps) : Scanned false (ps ++ qs) := by
  obtain ⟨hps, hqs, hopen⟩ := (scanned_append_mark (isMark_of_isGap hc) hline).1 hs
  exact hps.append hqs hopen hlast (fun _ => rfl) hline

theorem Steady.drop (hs : Steady (ps ++ p :: qs)) (hp : isBlankPiece p = true) : Steady (ps ++ qs) := by
  obtain ⟨hps, hqs, hnext⟩ := List.isChain_append.1 hs
  refine List.isChain_append.2 ⟨hps, hqs.tail, fun x hx y _ hescape => ?_⟩
  have hblank := hnext x hx p rfl hescape
  rw [hp] at hblank
  cases hblank

theorem Scanned.filter (hs : Scanned false (ps ++ qs)) (hsteady : Steady (ps ++ qs)) (hline : '\n' ∉ texts (ps ++ qs)) :
    Scanned false (ps ++ qs.filter (!isBlankPiece ·)) := by
  -- `ps` is what has been looked at, without its space
  induction qs generalizing ps with
  | nil => exact hs
  | cons q qs ih =>
    cases hq : isBlankPiece q with
    | false =>
      have hkept : ps ++ (q :: qs).filter (!isBlankPiece ·) = ps ++ [q] ++ qs.filter (!isBlankPiece ·) := by
        rw [List.filter_cons_of_pos (by rw [hq]; rfl), List.append_cons]
      rw [hkept]
      rw [List.append_cons] at hs hsteady hline
      exact ih hs hsteady hline
    | true =>
      cases q with
      | hit a t => cases hq
      | plain c =>
        have hlast : ps.getLast? ≠ some (.plain '\\') := fun hlast => by
          have hblank := (List.isChain_append.1 hsteady).2.2 _ hlast _ rfl rfl
          rw [hq] at hblank
          cases hblank
        have hline' : '\n' ∉ texts ps ∧ '\n' ∉ texts qs := by
          rw [texts_append, texts_plain] at hline
          exact ⟨fun hm => hline (List.mem_append_left _ hm),
            fun hm => hline (List.mem_append_right _ (List.mem_cons_of_mem _ hm))⟩
        rw [List.filter_cons_of_neg (by rw [hq]; decide)]
        refine ih (hs.drop hq hlast hline'.1) (hsteady.drop hq) ?_
        rw [texts_append, List.mem_append]
        exact fun hm => hm.elim hline'.1 hline'.2

theorem compress_eq_texts (s : Text) : compress s = texts ((quotePieces s).filter (!isBlankPiece ·)) := by
  show (quotePieces s).flatMap compressed = _
  induction quotePieces s with
  | nil => rfl
  | cons p ps ih =>
    cases p with
    | hit a t => exact congrArg (t ++ ·) ih
    | plain c =>
      rw [List.flatMap_cons, ih, compressed, List.filter_cons]
      by_cases hc : isGap c = true <;> simp [isBlankPiece, hc]

theorem compress_compress (hsteady : Steady (quotePieces s)) (hline : '\n' ∉ s) : compress (compress s) = compress s := by
  have hscanned : Scanned false ([] ++ (quotePieces s).filter (!isBlankPiece ·)) :=
    Scanned.filter (scanned_quotePieces s) hsteady (by rwa [List.nil_append, texts_quotePieces])
  have hpieces : quotePieces (compress s) = (quotePieces s).filter (!isBlankPiece ·) :=
    quotePieces_eq_iff.2 ⟨hscanned, (compress_eq_texts s).symm⟩
  rw [compress_eq_texts (compress s), hpieces, List.filter_filter, compress_eq_texts s]
  simp only [Bool.and_self]

end Steady

/-- A loaded text loads again. It loads as it is exactly if its placeholders cannot be compressed further; so it
does if the raw text was tidy and no backslash stood before horizontal space in its placeholders. -/
theorem normalize_again_iff {raw t : Text} (h : normalize raw = .ok t) :
    (∃ again, normalize t = .ok again) ∧
    (normalize t = .ok t ↔ ∀ p ∈ find t [], compress p = p) ∧
    (Tidy raw → (∀ p ∈ find raw [], Steady (quotePieces p)) → normalize t = .ok t) := by
  have hloads : ∀ p ∈ find t [], Loadable p := fun p hp => loadable_of_mem_find_loaded h hp
  refine ⟨exists_normalizeEach_eq_ok (fun p hp => (hloads p hp).wellFormed) t, normalize_eq_self_iff hloads,
    fun hraw hsteady => (normalize_eq_self_iff hloads).2 fun p hp => ?_⟩
  have hdone : ∀ q ∈ find raw [], compress (compress q) = compress q := fun q hq =>
    compress_compress (hsteady q hq) (loadable_of_mem_find h hq).one_line
  obtain ⟨q, hq, rfl⟩ := (mem_find_loaded_iff h).1 hp
  rw [normalize_of_tidy hraw h (fun q hq _ => hdone q hq) q hq]
  exact hdone q hq

/-- A quote that no backslash precedes until the space in front of it is gone. -/
def lateEscape : Text := braced "a \\ \"b c\"".toList

/-- The first text loads again as it is. In the other two a placeholder is left that can be compressed further:
a quote is escaped that was not, and a replacement has reached into a longer placeholder. -/
theorem normalize_twice :
    normalize spaced = .ok (braced "a".toList ++ ' ' :: braced "b|raw".toList) ∧
    normalize (braced "a".toList ++ ' ' :: braced "b|raw".toList) =
      .ok (braced "a".toList ++ ' ' :: braced "b|raw".toList) ∧
    normalize lateEscape = .ok (braced "a\\\"b c\"".toList) ∧
    normalize (braced "a\\\"b c\"".toList) ≠ .ok (braced "a\\\"b c\"".toList) ∧
    normalize nested = .ok (braced "b".toList ++ ' ' :: braced ("a ".toList ++ opening ++ "b".toList)) ∧
    normalize (braced "b".toList ++ ' ' :: braced ("a ".toList ++ opening ++ "b".toList)) ≠
      .ok (braced "b".toList ++ ' ' :: braced ("a ".toList ++ opening ++ "b".toList)) := by
  have hspaced : normalize spaced = .ok (braced "a".toList ++ ' ' :: braced "b|raw".toList) := by decide +kernel
  have hlate : normalize lateEscape = .ok (braced "a\\\"b c\"".toList) := by decide +kernel
  have hnested : normalize nested = .ok (braced "b".toList ++ ' ' :: braced ("a ".toList ++ opening ++ "b".toList)) := by
    decide +kernel
  have htidy : Tidy spaced := by
    have hlast : Tidy (braced "b | raw".toList ++ []) := .placeholder (by decide) (by decide) .nil
    rw [List.append_nil] at hlast
    exact .placeholder (by decide) (by decide) (.plain (by decide) hlast)
  refine ⟨hspaced, (normalize_again_iff hspaced).2.2 htidy (by decide +kernel), hlate, fun h => ?_, hnested, fun h => ?_⟩
  · exact absurd ((normalize_again_iff hlate).2.1.1 h (braced "a\\\"b c\"".toList) (by decide +kernel)) (by decide +kernel)
  · have hdone := (normalize_again_iff hnested).2.1.1 h (braced ("a ".toList ++ opening ++ "b".toList)) (by decide +kernel)
    exact absurd hdone (by decide +kernel)

end Placeholder
end Stencil
