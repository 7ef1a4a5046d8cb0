import Stencil.Proofs.LoneBrace
import Stencil.Proofs.Tidy

/-! # Rewriting placeholders one after the other

Loading compresses one distinct placeholder after the other, each wherever its text stands. A placeholder
has its first closing brace at its end, so nothing of this reaches out of a placeholder
(`replace_eq_fill`): what is loaded is the text with every placeholder rewritten on its own by all the
replacements in their order, and the rest as it was. It is the text with every placeholder compressed
exactly if these replacements compress each placeholder (`normalize_eq_fill_iff`); a placeholder at the
end of another one can spoil that. -/

namespace Stencil
open Text

namespace Placeholder

/-- A placeholder as the search for all of them finds it. -/
def IsPlaceholder (t : Text) : Prop := ∃ body, t = braced body ∧ '}' ∉ body ∧ body ≠ []

namespace IsPlaceholder
variable {p q s t u w : Text}

theorem ne_nil (h : IsPlaceholder t) : t ≠ [] := by
  obtain ⟨body, rfl, -⟩ := h
  exact braced_ne_nil body

theorem length_le (h : IsPlaceholder t) : 5 ≤ t.length := by
  obtain ⟨body, rfl, -, hne⟩ := h
  have := List.length_pos_iff.2 hne
  rw [length_braced]
  omega

theorem of_hit {a : Unit} (h : .hit a t ∈ cut anywhere s) : IsPlaceholder t := exists_braced_of_hit h

theorem of_mem_find (h : t ∈ find s []) : IsPlaceholder t := by
  obtain ⟨a, ha⟩ := Piece.mem_hits.1 (mem_find_nil.1 h)
  exact of_hit ha

theorem append_inj (ht : IsPlaceholder t) (hp : IsPlaceholder p) (h : t ++ s = p ++ u) : t = p ∧ s = u := by
  obtain ⟨b, rfl, hb, -⟩ := ht
  obtain ⟨c, rfl, hc, -⟩ := hp
  obtain ⟨rfl, rfl⟩ := braced_append_inj hb hc h
  exact ⟨rfl, rfl⟩

theorem anywhere_append (h : IsPlaceholder t) (s : Text) : anywhere (t ++ s) = some ((), t.length) := by
  obtain ⟨body, rfl, hb, hne⟩ := h
  exact anywhere_braced hb hne s

theorem of_isWellFormed (hp : IsPlaceholder p) (h : isWellFormed (compress p) = true) :
    IsPlaceholder (compress p) := by
  obtain ⟨body, rfl, hb, -⟩ := hp
  obtain ⟨body', hbody'⟩ := exists_braced_of_isWellFormed h
  refine ⟨body', hbody', not_mem_of_compress_braced hb hbody', ?_⟩
  rintro rfl
  rw [hbody'] at h
  revert h; decide

/-- A placeholder that ends with another one begins with two opening braces, or with the other one. -/
theorem exists_opening_append (hwt : IsPlaceholder (w ++ t)) (ht : IsPlaceholder t) :
    ∃ v, w ++ opening = opening ++ v := by
  obtain ⟨x, rfl, -⟩ := ht
  obtain ⟨z, hz, -⟩ := hwt
  match w, hz with
  | [], _ => exact ⟨[], rfl⟩
  | [c], hz =>
    obtain rfl : c = '{' := (List.cons.inj hz).1
    exact ⟨['{'], rfl⟩
  | c :: d :: w, hz =>
    obtain ⟨rfl, hbehind⟩ := List.cons.inj hz
    obtain rfl : d = '{' := (List.cons.inj hbehind).1
    exact ⟨w ++ opening, rfl⟩

/-- In front of two opening braces, opening braces open all the same. -/
theorem prepend (hw : '}' ∉ w) (hwt : IsPlaceholder (w ++ t)) (ht : IsPlaceholder t) (hp : IsPlaceholder p) :
    IsPlaceholder (w ++ p) := by
  obtain ⟨v, hv⟩ := exists_opening_append hwt ht
  obtain ⟨y, rfl, hy, hyne⟩ := hp
  refine ⟨v ++ y, ?_, fun hm => ?_, by simp [hyne]⟩
  · rw [braced, braced, ← List.append_assoc, ← List.append_assoc, hv]; simp
  · have hvw : '}' ∉ v := fun hm => by
      have : '}' ∈ w ++ opening := hv ▸ List.mem_append_right _ hm
      simp [hw, opening] at this
    exact (List.mem_append.1 hm).elim hvw hy

/-- What a placeholder ends with begins no other one, unless it is one. -/
theorem eq_of_suffix {v r : Text} (ht : IsPlaceholder (v ++ w)) (hw : w ≠ []) (hp : IsPlaceholder p)
    (h : w ++ s = p ++ r) : w = p := by
  obtain ⟨b, hb, hbc, -⟩ := ht
  obtain ⟨c, rfl, hcc, -⟩ := hp
  rw [braced_append] at h
  have hends : v ++ w = (opening ++ b) ++ closing := hb
  rcases List.append_eq_append_iff.1 hends with ⟨y, hy, rfl⟩ | ⟨y, rfl, hy⟩
  · have hyc : '}' ∉ y := fun hm => by
      have : '}' ∈ opening ++ b := hy ▸ List.mem_append_right _ hm
      simp [opening, hbc] at this
    rw [List.append_assoc] at h
    obtain ⟨rfl, -⟩ := append_cons_inj (v := opening ++ c) hyc (by simp [opening, hcc]) h
    rfl
  · -- a closing brace at most is left
    obtain ⟨d, w, rfl⟩ := List.exists_cons_of_ne_nil hw
    have hd : d ∈ closing := hy ▸ List.mem_append_right _ List.mem_cons_self
    obtain rfl : d = '{' := (List.cons.inj h).1
    exact absurd hd (by decide)

theorem cut_literally_append (ht : IsPlaceholder t) (hp : IsPlaceholder p) (s : Text) :
    cut (literally p) (t ++ s) = cut (literally p) t ++ cut (literally p) s := by
  refine cut_append fun v w hvw hw => ⟨?_, fun _ n hn => ?_⟩
  · have heq : ∀ s r, w ++ s = p ++ r → w = p := fun s r h => eq_of_suffix (hvw ▸ ht) hw hp h
    by_cases hwp : w = p
    · rw [hwp, literally_eq_some_iff.2 ⟨⟨s, rfl⟩, rfl⟩, literally_eq_some_iff.2 ⟨⟨[], (List.append_nil p).symm⟩, rfl⟩]
    · rw [literally_eq_none_iff.2 fun r h => hwp (heq s r h),
        literally_eq_none_iff.2 fun r h => hwp (heq [] r (by rw [List.append_nil]; exact h))]
  · obtain ⟨⟨r, rfl⟩, rfl⟩ := literally_eq_some_iff.1 hn
    rw [List.length_append]; omega

/-- One replacement in a placeholder changes its end or nothing. -/
theorem replace_cases (ht : IsPlaceholder t) (hp : IsPlaceholder p) (new : Text) :
    (∃ u, t = u ++ p ∧ replace p new t = u ++ new) ∨ ¬ p <:+ t ∧ replace p new t = t := by
  by_cases hend : p <:+ t
  · obtain ⟨u, rfl⟩ := hend
    refine .inl ⟨u, rfl, ?_⟩
    have hcut : cut (literally p) (u ++ p) = u.map .plain ++ cut (literally p) p := by
      refine cut_plain fun v w hvw hw => literally_eq_none_iff.2 fun r h => hw ?_
      have hsuffix : w ++ p = p :=
        eq_of_suffix (v := v) (s := []) (by rw [← List.append_assoc, ← hvw]; exact ht) (by simp [hw]) hp
          (by rw [List.append_nil]; exact h)
      exact List.append_left_eq_self.1 hsuffix
    rw [replace, hcut, Piece.fill_append, Piece.fill_map_plain, ← replace, replace_self hp.ne_nil]
  · refine .inr ⟨hend, ?_⟩
    have hcut : cut (literally p) t = t.map .plain := by
      refine cut_of_never fun v w hvw hw => literally_eq_none_iff.2 fun r h => hend ?_
      have hwp : w = p := eq_of_suffix (v := v) (s := []) (hvw ▸ ht) hw hp (by rw [List.append_nil]; exact h)
      exact ⟨v, by rw [hvw, hwp]⟩
    rw [replace, hcut, Piece.fill_map_plain]

theorem replace (ht : IsPlaceholder t) (hp : IsPlaceholder p) (hq : IsPlaceholder q) :
    IsPlaceholder (Text.replace p q t) := by
  rcases replace_cases ht hp q with ⟨u, rfl, hr⟩ | ⟨-, hr⟩
  · rw [hr]
    refine prepend (fun hm => ?_) ht hp hq
    -- the first closing brace stands in `p`
    obtain ⟨b, hb, hbc, -⟩ := ht
    obtain ⟨v, w, rfl, hv⟩ := List.eq_append_cons_of_mem hm
    rw [List.append_assoc, ← List.append_nil (braced b), braced_append] at hb
    obtain ⟨-, hrest⟩ := append_cons_inj (v := opening ++ b) hv (by simp [opening, hbc]) hb
    have hlen := congrArg List.length hrest
    have := hp.length_le
    simp at hlen
    omega
  · rw [hr]; exact ht

end IsPlaceholder

/-! ### Replacements in a document -/

variable {f g : Unit → Text → Text} {ps : List (Piece Unit)}

/-- Every hit is a placeholder, and stays one under `g`. -/
def Keeps (g : Unit → Text → Text) (ps : List (Piece Unit)) : Prop :=
  ∀ a t, .hit a t ∈ ps → IsPlaceholder t ∧ IsPlaceholder (g a t)

theorem Keeps.tail {q : Piece Unit} (h : Keeps g (q :: ps)) : Keeps g ps :=
  fun a t ht => h a t (List.mem_cons_of_mem _ ht)

theorem Keeps.of_cut {s : Text} (h : ∀ p ∈ find s [], IsPlaceholder (g () p)) : Keeps g (cut anywhere s) :=
  fun a _ ht => ⟨.of_hit ht, h _ (mem_find_nil.2 (Piece.mem_hits.2 ⟨a, ht⟩))⟩

/-- With other placeholders in place of those of a text, nothing in front of them begins a placeholder
that began none before. -/
theorem Keeps.exists_of_front (hg : Keeps g ps) {w p r : Text} (hw : '}' ∉ w) (hp : IsPlaceholder p)
    (h : w ++ Piece.fill g ps = p ++ r) : ∃ q r, IsPlaceholder q ∧ w ++ Piece.texts ps = q ++ r := by
  induction ps generalizing w with
  | nil => exact ⟨p, r, hp, h⟩
  | cons x ps ih =>
    cases x with
    | plain c =>
      rw [Piece.fill_plain] at h
      by_cases hc : c = '}'
      · subst hc
        -- the placeholder ends with this brace and the next one
        obtain ⟨b, rfl, hb, hne⟩ := hp
        rw [braced_append] at h
        obtain ⟨rfl, hnext⟩ := append_cons_inj (v := opening ++ b) hw (by simp [opening, hb]) h
        cases ps with
        | nil => cases hnext
        | cons y ps =>
          cases y with
          | plain d =>
            obtain rfl : d = '}' := (List.cons.inj hnext).1
            exact ⟨braced b, Piece.texts ps, ⟨b, rfl, hb, hne⟩, by simp [braced, closing]⟩
          | hit a t =>
            obtain ⟨v, hv, -⟩ := (hg a t (by simp)).2
            rw [Piece.fill_hit, hv, braced_append] at hnext
            exact absurd (List.cons.inj hnext).1 (by decide)
      · have hwc : '}' ∉ w ++ [c] := by simp [hw, Ne.symm hc]
        obtain ⟨q, r, hq, hqr⟩ := ih hg.tail hwc (by simpa using h)
        exact ⟨q, r, hq, by simpa using hqr⟩
    | hit a t =>
      obtain ⟨ht, hgt⟩ := hg a t List.mem_cons_self
      refine ⟨w ++ t, Piece.texts ps, ?_, by simp⟩
      -- the placeholder ends with this one
      obtain ⟨b, hb, hbc, -⟩ := id hgt
      obtain ⟨c, rfl, hc, hcne⟩ := id hp
      rw [Piece.fill_hit, hb, braced_append, braced_append] at h
      have hwb : '}' ∉ w ++ (opening ++ b) := by simp [hw, opening, hbc]
      obtain ⟨hfront, -⟩ := append_cons_inj (v := opening ++ c) hwb (by simp [opening, hc])
        (by simpa [opening] using h)
      refine IsPlaceholder.prepend hw (t := g a t) ?_ hgt ht
      refine ⟨c, ?_, hc, hcne⟩
      rw [hb, braced, braced, ← List.append_assoc, hfront]

/-- A text finds the same places for placeholders once others stand there. -/
theorem cut_fill {s : Text} (hg : Keeps g (cut anywhere s)) :
    cut anywhere (Piece.fill g (cut anywhere s)) = (cut anywhere s).map (Piece.mapText g) := by
  revert hg
  refine cut_rec (P := fun _ ps => Keeps g ps → cut anywhere (Piece.fill g ps) = ps.map (Piece.mapText g))
    ?_ ?_ ?_ s
  · exact fun _ => rfl
  · intro c s hno ih hg
    rw [Piece.fill_plain, cut_plain_cons, ih hg.tail]
    · rfl
    · rw [Option.eq_none_iff_forall_ne_some]
      rintro ⟨⟨⟩, n⟩ h
      obtain ⟨b, rest, hs, hb, hne, -⟩ := anywhere_eq_some_iff.1 h
      obtain ⟨rfl, -⟩ := List.cons.inj hs
      obtain ⟨q, r, hq, hqr⟩ := hg.tail.exists_of_front (w := ['{']) (by decide) ⟨b, rfl, hb, hne⟩ hs
      rw [texts_cut] at hqr
      have hmatch := hq.anywhere_append r
      rw [← hqr] at hmatch
      have := hq.length_le
      exact hno () (q.length - 1) (by rw [show q.length - 1 + 1 = q.length by omega]; exact hmatch)
  · intro c s a n _ ih hg
    have hgt := (hg a _ List.mem_cons_self).2
    rw [Piece.fill_hit, cut_hit (hgt.anywhere_append _) hgt.ne_nil, ih hg.tail]
    rfl

/-- A replacement of one placeholder by another goes on within placeholders. -/
theorem replace_eq_fill {p : Text} (hp : IsPlaceholder p) (new s : Text) :
    replace p new s = Piece.fill (fun _ t => replace p new t) (cut anywhere s) := by
  refine cut_rec (P := fun s ps => replace p new s = Piece.fill (fun _ t => replace p new t) ps) ?_ ?_ ?_ s
  · rfl
  · intro c s hno ih
    have hnone : literally p (c :: s) = none := by
      rw [literally_eq_none_iff]
      intro r hr
      have hmatch := hp.anywhere_append r
      rw [← hr] at hmatch
      have := hp.length_le
      exact hno () (p.length - 1) (by rw [show p.length - 1 + 1 = p.length by omega]; exact hmatch)
    rw [replace, cut_plain_cons hnone, Piece.fill_plain, Piece.fill_plain, ← ih, replace]
  · intro c s a n hm ih
    have ht : IsPlaceholder (c :: s.take n) :=
      .of_hit (s := c :: s) (a := a) (by rw [cut_of_match hm]; exact List.mem_cons_self)
    have hs : c :: s = c :: s.take n ++ s.drop n := by rw [List.cons_append, List.take_append_drop]
    rw [hs, replace, ht.cut_literally_append hp, Piece.fill_append, Piece.fill_hit, ← ih, replace, replace]

/-- What all the replacements of loading make of a placeholder that stands alone. -/
def rewritten (ps : List Text) (t : Text) : Text := ps.foldl (fun t p => replace p (compress p) t) t

theorem isPlaceholder_rewritten {t : Text} {ps : List Text} (hps : ∀ p ∈ ps, IsPlaceholder p ∧ IsPlaceholder (compress p))
    (ht : IsPlaceholder t) : IsPlaceholder (rewritten ps t) := by
  induction ps generalizing t with
  | nil => exact ht
  | cons p ps ih =>
    obtain ⟨hp, hc⟩ := hps p List.mem_cons_self
    exact ih (fun q hq => hps q (List.mem_cons_of_mem _ hq)) (ht.replace hp hc)

theorem rewritten_of_fixed {t : Text} {qs : List Text} (h : ∀ p ∈ qs, replace p (compress p) t = t) :
    rewritten qs t = t := by
  induction qs with
  | nil => rfl
  | cons p qs ih =>
    rw [rewritten, List.foldl_cons, h p List.mem_cons_self]
    exact ih fun q hq => h q (List.mem_cons_of_mem _ hq)

/-- It is compressed if no other placeholder ends it, and none that changes ends what it becomes. -/
theorem rewritten_eq_compress {t : Text} {qs : List Text} (hqs : ∀ p ∈ qs, IsPlaceholder p)
    (hc : IsPlaceholder (compress t)) (ht : t ∈ qs) (hapart : ∀ p ∈ qs, p <:+ t → p = t)
    (hdone : ∀ p ∈ qs, p <:+ compress t → compress p = p) : rewritten qs t = compress t := by
  obtain ⟨front, behind, rfl, hfront⟩ := List.eq_append_cons_of_mem ht
  have hbefore : rewritten front t = t := by
    refine rewritten_of_fixed fun p hp => ?_
    have hmem : p ∈ front ++ t :: behind := List.mem_append_left _ hp
    rcases (hqs t ht).replace_cases (hqs p hmem) (compress p) with ⟨u, rfl, -⟩ | ⟨-, hr⟩
    · have hpt := hapart p hmem (List.suffix_append u p)
      exact absurd (hpt ▸ hp) hfront
    · exact hr
  have hafter : rewritten behind (compress t) = compress t := by
    refine rewritten_of_fixed fun p hp => ?_
    have hmem : p ∈ front ++ t :: behind := List.mem_append_right _ (List.mem_cons_of_mem _ hp)
    rcases hc.replace_cases (hqs p hmem) (compress p) with ⟨u, hu, -⟩ | ⟨-, hr⟩
    · rw [hdone p hmem ⟨u, hu.symm⟩, replace_id]
    · exact hr
  calc rewritten (front ++ t :: behind) t
      = rewritten behind (replace t (compress t) (rewritten front t)) := by
        rw [rewritten, List.foldl_append, List.foldl_cons]; rfl
    _ = compress t := by rw [hbefore, replace_self (hqs t ht).ne_nil, hafter]

theorem isWellFormed_of_normalizeEach {s t : Text} {qs : List Text} (h : normalizeEach s qs = .ok t) :
    ∀ p ∈ qs, isWellFormed (compress p) = true := by
  induction qs generalizing s with
  | nil => intro p hp; cases hp
  | cons q qs ih =>
    rw [normalizeEach] at h
    split at h
    · next hwell =>
      intro p hp
      rcases List.mem_cons.1 hp with rfl | hp
      · exact hwell
      · exact ih h p hp
    · cases h

theorem normalizeEach_fill {s t : Text} {qs : List Text}
    (hqs : ∀ p ∈ qs, IsPlaceholder p) (hg : Keeps g (cut anywhere s))
    (h : normalizeEach (Piece.fill g (cut anywhere s)) qs = .ok t) :
    t = Piece.fill (fun a x => rewritten qs (g a x)) (cut anywhere s) := by
  induction qs generalizing g with
  | nil => exact (Except.ok.inj h).symm
  | cons p qs ih =>
    have hp := hqs p List.mem_cons_self
    rw [normalizeEach] at h
    split at h
    · next hwell =>
      have hc := hp.of_isWellFormed hwell
      have hone : (if compress p = p then Piece.fill g (cut anywhere s)
          else replace p (compress p) (Piece.fill g (cut anywhere s))) =
            Piece.fill (fun a x => replace p (compress p) (g a x)) (cut anywhere s) := by
        rw [← Piece.fill_map_mapText (fun _ x => replace p (compress p) x) g, ← cut_fill hg, ← replace_eq_fill hp]
        split
        · next heq => rw [heq, replace_id]
        · rfl
      rw [hone] at h
      exact ih (fun q hq => hqs q (List.mem_cons_of_mem _ hq))
        (fun a x hx => ⟨(hg a x hx).1, (hg a x hx).2.replace hp hc⟩) h
    · cases h

theorem fill_inj (hf : Keeps f ps) (hg : Keeps g ps) (h : Piece.fill f ps = Piece.fill g ps) :
    ∀ a t, .hit a t ∈ ps → f a t = g a t := by
  induction ps with
  | nil => intro a t ht; cases ht
  | cons q ps ih =>
    intro a t ht
    cases q with
    | plain c =>
      exact ih hf.tail hg.tail (List.cons.inj h).2 a t (by simpa using ht)
    | hit b u =>
      obtain ⟨heq, hrest⟩ := (hf b u List.mem_cons_self).2.append_inj (hg b u List.mem_cons_self).2 h
      rcases List.mem_cons.1 ht with ht | ht
      · obtain ⟨rfl, rfl⟩ := Piece.hit.inj ht
        exact heq
      · exact ih hf.tail hg.tail hrest a t ht

theorem eq_of_braced_suffix {b c : Text} (hb : '{' ∉ b) (h : braced c <:+ braced b) : braced c = braced b := by
  obtain ⟨u, hu⟩ := h
  cases u with
  | nil => exact hu
  | cons x u =>
    -- the opening of the end would stand in the body
    have hbehind : u ++ braced c = '{' :: (b ++ closing) := (List.cons.inj hu).2
    have hin : '{' ∈ b ++ closing := by
      cases u with
      | nil =>
        have hrest : '{' :: (c ++ closing) = b ++ closing := (List.cons.inj hbehind).2
        exact hrest ▸ List.mem_cons_self
      | cons y u =>
        have hrest : u ++ braced c = b ++ closing := (List.cons.inj hbehind).2
        exact hrest ▸ List.mem_append_right u List.mem_cons_self
    exact absurd ((List.mem_append.1 hin).resolve_left hb) (by decide)

/-- A loaded text is the raw one with its placeholders rewritten, each on its own, and nothing else
changed; all of them are compressed exactly if the replacements compress each one. -/
theorem normalize_eq_fill_iff {raw t : Text} (h : normalize raw = .ok t) :
    t = Piece.fill (fun _ p => rewritten (find raw []) p) (scan raw) ∧
    (t = Piece.fill (fun _ p => compress p) (scan raw) ↔
      ∀ p ∈ find raw [], rewritten (find raw []) p = compress p) := by
  have hfound : ∀ p ∈ find raw [], IsPlaceholder p := fun p hp => .of_mem_find hp
  have hcompressed : ∀ p ∈ find raw [], IsPlaceholder (compress p) := fun p hp =>
    (hfound p hp).of_isWellFormed (isWellFormed_of_normalizeEach h p hp)
  have hrewritten : ∀ p ∈ find raw [], IsPlaceholder (rewritten (find raw []) p) := fun p hp =>
    isPlaceholder_rewritten (fun q hq => ⟨hfound q hq, hcompressed q hq⟩) (hfound p hp)
  rw [scan_eq_cut]
  have hfill : t = Piece.fill (fun _ p => rewritten (find raw []) p) (cut anywhere raw) := by
    refine normalizeEach_fill (g := fun _ p => p) hfound (.of_cut hfound) ?_
    rw [Piece.fill_id, texts_cut]
    exact h
  refine ⟨hfill, fun heq p hp => ?_, fun hall => ?_⟩
  · obtain ⟨a, ha⟩ := Piece.mem_hits.1 (mem_find_nil.1 hp)
    exact fill_inj (f := fun _ p => rewritten (find raw []) p) (g := fun _ p => compress p) (.of_cut hrewritten)
      (.of_cut hcompressed) (hfill.symm.trans heq) a p ha
  · rw [hfill]
    exact Piece.fill_congr fun a p hp => hall p (mem_find_nil.2 (Piece.mem_hits.2 ⟨a, hp⟩))

/-- In a tidy text no placeholder ends another one: what counts is that no compressed placeholder that
stands in the text can be compressed further. -/
theorem normalize_of_tidy {raw t : Text} (hraw : Tidy raw) (h : normalize raw = .ok t)
    (hdone : ∀ p ∈ find raw [], compress p ∈ find raw [] → compress (compress p) = compress p) :
    ∀ p ∈ find raw [], rewritten (find raw []) p = compress p := by
  intro p hp
  have hfound : ∀ q ∈ find raw [], IsPlaceholder q := fun q hq => .of_mem_find hq
  have hc : IsPlaceholder (compress p) := (hfound p hp).of_isWellFormed (isWellFormed_of_normalizeEach h p hp)
  obtain ⟨b, rfl, hb⟩ := hraw.exists_braced hp
  refine rewritten_eq_compress hfound hc hp (fun q hq hend => ?_) (fun q hq hend => ?_)
  · obtain ⟨c, rfl, -⟩ := hraw.exists_braced hq
    exact eq_of_braced_suffix hb.no_opening hend
  · obtain ⟨c, rfl, -⟩ := hraw.exists_braced hq
    obtain ⟨b', hb', -⟩ := hc
    have hopen : '{' ∉ b' := by
      have hcount := count_compress (c := '{') (by decide) (braced b)
      rw [hb'] at hcount
      simp only [braced, List.count_append, List.count_eq_zero_of_not_mem hb.no_opening] at hcount
      rw [← List.count_eq_zero]
      omega
    rw [hb'] at hend
    have heq := eq_of_braced_suffix hopen hend
    rw [heq, ← hb']
    exact hdone _ hp (by rw [hb', ← heq]; exact hq)

/-- A text with blanks in two placeholders. -/
def spaced : Text := braced " a".toList ++ ' ' :: braced "b | raw".toList

/-- A placeholder, and one that ends with it. -/
def nested : Text := braced "b ".toList ++ ' ' :: braced ("a ".toList ++ opening ++ "b ".toList)

/-- The first text is compressed; the second one is not, since the first replacement reaches into the
second placeholder. -/
theorem normalize_spaced_and_nested :
    braced "a".toList ++ ' ' :: braced "b|raw".toList = Piece.fill (fun _ p => compress p) (scan spaced) ∧
    normalize nested = .ok (braced "b".toList ++ ' ' :: braced ("a ".toList ++ opening ++ "b".toList)) ∧
    braced "b".toList ++ ' ' :: braced ("a ".toList ++ opening ++ "b".toList) ≠
      Piece.fill (fun _ p => compress p) (scan nested) := by
  have hspaced : normalize spaced = .ok (braced "a".toList ++ ' ' :: braced "b|raw".toList) := rfl
  have hnested : normalize nested =
      .ok (braced "b".toList ++ ' ' :: braced ("a ".toList ++ opening ++ "b".toList)) := rfl
  refine ⟨(normalize_eq_fill_iff hspaced).2.2 (by decide), hnested, fun h => ?_⟩
  have hall := (normalize_eq_fill_iff hnested).2.1 h (braced ("a ".toList ++ opening ++ "b ".toList)) (by decide)
  exact absurd hall (by decide)

end Placeholder
end Stencil
