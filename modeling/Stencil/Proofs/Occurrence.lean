import Mathlib.Data.List.Count
import Stencil.Text.Cut
import Stencil.Text.Html
import Stencil.Proofs.Chars

/-! # Matches in a text

How `cut` reads a text whose front is known: a front without matches stays plain (`cut_plain`), a match
becomes one hit (`cut_hit`), and what holds piece by piece holds of the whole (`cut_rec`). From this,
what one replacement does to a text and to the number of times a character stands in it. -/

namespace Stencil

namespace Piece
variable {α β : Type}

@[simp] theorem fill_nil (f : α → Text → Text) : fill f [] = [] := rfl

@[simp] theorem fill_plain (f : α → Text → Text) (c : Char) (ps : List (Piece α)) :
    fill f (plain c :: ps) = c :: fill f ps := rfl

@[simp] theorem fill_hit (f : α → Text → Text) (a : α) (t : Text) (ps : List (Piece α)) :
    fill f (hit a t :: ps) = f a t ++ fill f ps := rfl

@[simp] theorem fill_append (f : α → Text → Text) (ps qs : List (Piece α)) :
    fill f (ps ++ qs) = fill f ps ++ fill f qs := by
  simp [fill]

@[simp] theorem fill_map_plain (f : α → Text → Text) (s : Text) : fill f (s.map plain) = s := by
  induction s with
  | nil => rfl
  | cons c s ih => rw [List.map_cons, fill_plain, ih]

@[simp] theorem texts_nil : texts ([] : List (Piece α)) = [] := rfl

@[simp] theorem texts_plain (c : Char) (ps : List (Piece α)) : texts (plain c :: ps) = c :: texts ps := rfl

@[simp] theorem texts_hit (a : α) (t : Text) (ps : List (Piece α)) :
    texts (hit a t :: ps) = t ++ texts ps := rfl

@[simp] theorem texts_append (ps qs : List (Piece α)) : texts (ps ++ qs) = texts ps ++ texts qs := by
  simp [texts]

@[simp] theorem texts_map_plain (s : Text) : texts (s.map plain : List (Piece α)) = s := by
  induction s with
  | nil => rfl
  | cons c s ih => rw [List.map_cons, texts_plain, ih]

@[simp] theorem hits_nil : hits ([] : List (Piece α)) = [] := rfl

@[simp] theorem hits_plain (c : Char) (ps : List (Piece α)) : hits (plain c :: ps) = hits ps := rfl

@[simp] theorem hits_hit (a : α) (t : Text) (ps : List (Piece α)) :
    hits (hit a t :: ps) = t :: hits ps := rfl

@[simp] theorem hits_append (ps qs : List (Piece α)) : hits (ps ++ qs) = hits ps ++ hits qs := by
  simp [hits]

@[simp] theorem hits_map_plain (s : Text) : hits (s.map plain : List (Piece α)) = [] := by
  induction s with
  | nil => rfl
  | cons c s ih => rw [List.map_cons, hits_plain, ih]

@[simp] theorem spansFrom_map_plain (start : Nat) (s : Text) :
    spansFrom start (s.map plain : List (Piece α)) = [] := by
  induction s generalizing start with
  | nil => rfl
  | cons c s ih => rw [List.map_cons, spansFrom, ih]

theorem mem_spansFrom_iff {start : Nat} {ps : List (Piece α)} {span : Span} {a : α} :
    (span, a) ∈ spansFrom start ps ↔ ∃ qs t rs, ps = qs ++ hit a t :: rs ∧
      span = ⟨start + Text.utf8Size (texts qs), start + Text.utf8Size (texts qs) + Text.utf8Size t⟩ := by
  induction ps generalizing start with
  | nil => simp [spansFrom]
  | cons p ps ih =>
    constructor
    · intro h
      cases p with
      | plain c =>
        obtain ⟨qs, t, rs, rfl, rfl⟩ := ih.1 h
        exact ⟨plain c :: qs, t, rs, rfl, by simp [Nat.add_assoc]⟩
      | hit b u =>
        rcases List.mem_cons.1 h with h | h
        · obtain ⟨rfl, rfl⟩ := Prod.mk.inj h
          exact ⟨[], u, ps, rfl, by simp⟩
        · obtain ⟨qs, t, rs, rfl, rfl⟩ := ih.1 h
          exact ⟨hit b u :: qs, t, rs, rfl, by simp [Nat.add_assoc]⟩
    · rintro ⟨qs, t, rs, hsplit, rfl⟩
      cases qs with
      | nil =>
        obtain ⟨rfl, rfl⟩ := List.cons.inj hsplit
        simp [spansFrom]
      | cons q qs =>
        obtain ⟨rfl, rfl⟩ := List.cons.inj hsplit
        cases p with
        | plain c => exact ih.2 ⟨qs, t, rs, rfl, by simp [Nat.add_assoc]⟩
        | hit b u => exact List.mem_cons_of_mem _ (ih.2 ⟨qs, t, rs, rfl, by simp [Nat.add_assoc]⟩)

theorem mem_hits {t : Text} {ps : List (Piece α)} : t ∈ hits ps ↔ ∃ a, hit a t ∈ ps := by
  induction ps with
  | nil => simp
  | cons p ps ih =>
    cases p with
    | plain c => simp [ih]
    | hit a u =>
      simp only [hits_hit, List.mem_cons, ih, hit.injEq]
      constructor
      · rintro (rfl | ⟨b, hb⟩)
        exacts [⟨a, .inl ⟨rfl, rfl⟩⟩, ⟨b, .inr hb⟩]
      · rintro ⟨b, ⟨-, rfl⟩ | hb⟩
        exacts [.inl rfl, .inr ⟨b, hb⟩]

theorem fill_congr {f g : α → Text → Text} {ps : List (Piece α)}
    (h : ∀ a t, hit a t ∈ ps → f a t = g a t) : fill f ps = fill g ps := by
  induction ps with
  | nil => rfl
  | cons p ps ih =>
    have hps := ih fun a t ht => h a t (List.mem_cons_of_mem _ ht)
    cases p with
    | plain c => rw [fill_plain, fill_plain, hps]
    | hit a t => rw [fill_hit, fill_hit, hps, h a t List.mem_cons_self]

theorem fill_id (ps : List (Piece α)) : fill (fun _ t => t) ps = texts ps := by
  induction ps with
  | nil => rfl
  | cons p ps ih => cases p <;> simp [ih]

/-- A piece with another text if it is a hit. -/
def mapText (g : α → Text → Text) : Piece α → Piece α
  | plain c => plain c
  | hit a t => hit a (g a t)

theorem fill_map_mapText (f g : α → Text → Text) (ps : List (Piece α)) :
    fill f (ps.map (mapText g)) = fill (fun a t => f a (g a t)) ps := by
  induction ps with
  | nil => rfl
  | cons p ps ih => cases p <;> simp [mapText, ih]

theorem count_fill_le {f : α → Text → Text} {ps : List (Piece α)} {c : Char}
    (h : ∀ a t, hit a t ∈ ps → (f a t).count c ≤ t.count c) :
    (fill f ps).count c ≤ (texts ps).count c := by
  induction ps with
  | nil => exact Nat.le_refl _
  | cons p ps ih =>
    have hps := ih fun a t ht => h a t (List.mem_cons_of_mem _ ht)
    cases p with
    | plain d =>
      rw [fill_plain, texts_plain, List.count_cons, List.count_cons]
      exact Nat.add_le_add_right hps _
    | hit a t =>
      rw [fill_hit, texts_hit, List.count_append, List.count_append]
      exact Nat.add_le_add (h a t List.mem_cons_self) hps

theorem count_fill_eq {f : α → Text → Text} {ps : List (Piece α)} {c : Char}
    (h : ∀ a t, hit a t ∈ ps → (f a t).count c = t.count c) :
    (fill f ps).count c = (texts ps).count c := by
  induction ps with
  | nil => rfl
  | cons p ps ih =>
    have hps := ih fun a t ht => h a t (List.mem_cons_of_mem _ ht)
    cases p with
    | plain d => rw [fill_plain, texts_plain, List.count_cons, List.count_cons, hps]
    | hit a t =>
      rw [fill_hit, texts_hit, List.count_append, List.count_append, hps, h a t List.mem_cons_self]

end Piece

namespace Text
variable {α : Type} {m : Matcher α}

/-! ### Reading a known front -/

theorem cut_hit {t s : Text} {a : α} (h : m (t ++ s) = some (a, t.length)) (ht : t ≠ []) :
    cut m (t ++ s) = .hit a t :: cut m s := by
  obtain ⟨c, u, rfl⟩ := List.exists_cons_of_ne_nil ht
  rw [List.cons_append, List.length_cons] at h
  rw [List.cons_append, cut_of_match h, List.take_left, List.drop_left]

theorem cut_whole {t : Text} {a : α} (h : ∀ s, m (t ++ s) = some (a, t.length)) (ht : t ≠ []) :
    cut m t = [.hit a t] := by
  have hhit := cut_hit (h []) ht
  rwa [List.append_nil, cut_nil] at hhit

theorem cut_plain_cons {c : Char} {s : Text} (h : m (c :: s) = none) :
    cut m (c :: s) = .plain c :: cut m s :=
  cut_of_no_match fun a n hn => by rw [h] at hn; cases hn

theorem cut_plain {u s : Text} (h : ∀ v w, u = v ++ w → w ≠ [] → m (w ++ s) = none) :
    cut m (u ++ s) = u.map .plain ++ cut m s := by
  induction u with
  | nil => rfl
  | cons c u ih =>
    have hc : m (c :: (u ++ s)) = none := h [] (c :: u) rfl (List.cons_ne_nil _ _)
    rw [List.cons_append, cut_plain_cons hc, List.map_cons, List.cons_append,
      ih fun v w hw => h (c :: v) w (by rw [hw, List.cons_append])]

/-- What holds of the empty text and is kept by one more plain character and by one more match. -/
theorem cut_rec {P : Text → List (Piece α) → Prop} (nil : P [] [])
    (plain : ∀ c s, (∀ a n, m (c :: s) ≠ some (a, n + 1)) → P s (cut m s) →
      P (c :: s) (.plain c :: cut m s))
    (hit : ∀ c s a n, m (c :: s) = some (a, n + 1) → P (s.drop n) (cut m (s.drop n)) →
      P (c :: s) (.hit a (c :: s.take n) :: cut m (s.drop n)))
    (s : Text) : P s (cut m s) := by
  induction hn : s.length using Nat.strong_induction_on generalizing s with
  | _ n ih =>
    subst hn
    cases s with
    | nil => exact nil
    | cons c s =>
      by_cases h : ∃ a k, m (c :: s) = some (a, k + 1)
      · obtain ⟨a, k, h⟩ := h
        rw [cut_of_match h]
        refine hit c s a k h (ih _ ?_ _ rfl)
        rw [List.length_drop, List.length_cons]; omega
      · have h' : ∀ a k, m (c :: s) ≠ some (a, k + 1) := fun a k hk => h ⟨a, k, hk⟩
        rw [cut_of_no_match h']
        exact plain c s h' (ih _ (Nat.lt_succ_self _) _ rfl)

/-- A front in which matches are the same whatever follows, and end within it. -/
theorem cut_append {u s : Text} (h : ∀ v w, u = v ++ w → w ≠ [] →
    m (w ++ s) = m w ∧ ∀ a n, m w = some (a, n) → n ≤ w.length) : cut m (u ++ s) = cut m u ++ cut m s := by
  revert h
  refine cut_rec (P := fun u ps => (∀ v w, u = v ++ w → w ≠ [] →
    m (w ++ s) = m w ∧ ∀ a n, m w = some (a, n) → n ≤ w.length) → cut m (u ++ s) = ps ++ cut m s) ?_ ?_ ?_ u
  · exact fun _ => rfl
  · intro c u hno ih h
    have hc : m (c :: (u ++ s)) = m (c :: u) := (h [] (c :: u) rfl (List.cons_ne_nil _ _)).1
    rw [List.cons_append, cut_of_no_match fun a n hn => hno a n (hc ▸ hn), List.cons_append,
      ih fun v w hvw => h (c :: v) w (by rw [hvw, List.cons_append])]
  · intro c u a n hm ih h
    obtain ⟨hc, hlen⟩ := h [] (c :: u) rfl (List.cons_ne_nil _ _)
    have hn : n ≤ u.length := Nat.le_of_succ_le_succ (hlen a (n + 1) hm)
    have hmatch : m (c :: (u ++ s)) = some (a, n + 1) := hc.trans hm
    rw [List.cons_append, cut_of_match hmatch, List.take_append_of_le_length hn, List.drop_append_of_le_length hn,
      List.cons_append, ih fun v w hvw hw => h (c :: u.take n ++ v) w ?_ hw]
    rw [List.append_assoc, ← hvw, List.cons_append, List.take_append_drop]

theorem cut_of_never {s : Text} (h : ∀ v w, s = v ++ w → w ≠ [] → m w = none) : cut m s = s.map .plain := by
  have hs : cut m (s ++ []) = s.map .plain ++ cut m [] := cut_plain fun v w hw hne => by
    rw [List.append_nil]; exact h v w hw hne
  rwa [List.append_nil, cut_nil, List.append_nil] at hs

theorem match_of_cut_eq {s t : Text} {a : α} {qs rs : List (Piece α)} (h : cut m s = qs ++ .hit a t :: rs) :
    ∃ n, m (t ++ Piece.texts rs) = some (a, n) ∧ t = (t ++ Piece.texts rs).take n := by
  refine (cut_rec (P := fun _ ps => ∀ qs, ps = qs ++ .hit a t :: rs →
    ∃ n, m (t ++ Piece.texts rs) = some (a, n) ∧ t = (t ++ Piece.texts rs).take n) ?_ ?_ ?_ s) qs h
  · intro qs h
    simp at h
  · intro c s _ ih qs h
    cases qs with
    | nil => cases h
    | cons q qs => exact ih qs (List.cons.inj h).2
  · intro c s b n hm ih qs h
    cases qs with
    | nil =>
      obtain ⟨hhit, rfl⟩ := List.cons.inj h
      obtain ⟨rfl, rfl⟩ := Piece.hit.inj hhit
      have htext : c :: s.take n ++ Piece.texts (cut m (s.drop n)) = c :: s := by
        rw [texts_cut]; exact congrArg (c :: ·) (List.take_append_drop n s)
      exact ⟨n + 1, by rw [htext]; exact hm, by rw [htext]; rfl⟩
    | cons q qs => exact ih qs (List.cons.inj h).2

theorem match_of_mem_cut {s t : Text} {a : α} (h : .hit a t ∈ cut m s) :
    ∃ r n, m (t ++ r) = some (a, n) ∧ t = (t ++ r).take n := by
  obtain ⟨qs, rs, hsplit⟩ := List.append_of_mem h
  exact ⟨Piece.texts rs, match_of_cut_eq hsplit⟩

theorem match_of_mem_spans {s : Text} {span : Piece.Span} {a : α} (h : (span, a) ∈ Piece.spans (cut m s)) :
    ∃ u t r n, s = u ++ (t ++ r) ∧ m (t ++ r) = some (a, n) ∧ t = (t ++ r).take n ∧
      span = ⟨utf8Size u, utf8Size u + utf8Size t⟩ := by
  obtain ⟨qs, t, rs, hsplit, rfl⟩ := Piece.mem_spansFrom_iff.1 h
  obtain ⟨n, hmatch, ht⟩ := match_of_cut_eq hsplit
  refine ⟨Piece.texts qs, t, Piece.texts rs, n, ?_, hmatch, ht, by rw [Nat.zero_add]⟩
  conv_lhs => rw [← texts_cut m s, hsplit]
  simp

theorem match_of_spans {s : Text} {size : Nat} {a : α} {spans : List (Piece.Span × α)}
    (h : Piece.spans (cut m s) = (⟨0, size⟩, a) :: spans) :
    ∃ n, m s = some (a, n) ∧ utf8Size (s.take n) = size := by
  obtain ⟨u, t, r, n, rfl, hmatch, ht, hspan⟩ := match_of_mem_spans (h ▸ List.mem_cons_self)
  obtain ⟨hfirst, hpast⟩ := Piece.Span.mk.inj hspan
  cases u with
  | nil => exact ⟨n, hmatch, by rw [List.nil_append, ← ht, hpast]; simp⟩
  | cons c u =>
    have := c.utf8Size_pos
    rw [utf8Size_cons] at hfirst
    omega

variable {p new s : Text}

theorem literally_eq_some_iff {n : Nat} :
    literally p s = some ((), n) ↔ (∃ r, s = p ++ r) ∧ n = p.length := by
  simp only [literally, Option.map_eq_some_iff, strip?_eq_some_iff, Prod.mk.injEq, true_and]
  constructor
  · rintro ⟨r, hr, rfl⟩; exact ⟨⟨r, hr⟩, rfl⟩
  · rintro ⟨⟨r, hr⟩, rfl⟩; exact ⟨r, hr, rfl⟩

theorem literally_eq_none_iff : literally p s = none ↔ ∀ r, s ≠ p ++ r := by
  rw [literally, Option.map_eq_none_iff, strip?_eq_none_iff]

theorem replace_append_self (hp : p ≠ []) (s : Text) : replace p new (p ++ s) = new ++ replace p new s := by
  have h : literally p (p ++ s) = some ((), p.length) := literally_eq_some_iff.2 ⟨⟨s, rfl⟩, rfl⟩
  rw [replace, cut_hit h hp, Piece.fill_hit, ← replace]

theorem replace_cons_of_ne {c : Char} (h : ∀ r, c :: s ≠ p ++ r) :
    replace p new (c :: s) = c :: replace p new s := by
  rw [replace, cut_plain_cons (literally_eq_none_iff.2 h), Piece.fill_plain, ← replace]

theorem replace_self (hp : p ≠ []) : replace p new p = new := by
  have h : replace p new (p ++ []) = new ++ replace p new [] := replace_append_self hp []
  rwa [List.append_nil, show replace p new [] = [] from rfl, List.append_nil] at h

theorem eq_of_hit_mem_cut_literally {t : Text} {a : Unit} (h : .hit a t ∈ cut (literally p) s) : t = p := by
  obtain ⟨r, n, hmatch, ht⟩ := match_of_mem_cut h
  obtain ⟨⟨r', hr'⟩, rfl⟩ := literally_eq_some_iff.1 hmatch
  rw [ht, hr', List.take_left]

theorem replace_id (p s : Text) : replace p p s = s := by
  rw [replace, Piece.fill_congr fun a t ht => (eq_of_hit_mem_cut_literally ht).symm, Piece.fill_id, texts_cut]

theorem count_replace_le {c : Char} (h : new.count c ≤ p.count c) : (replace p new s).count c ≤ s.count c := by
  conv_rhs => rw [← texts_cut (literally p) s]
  exact Piece.count_fill_le fun a t ht => by rw [eq_of_hit_mem_cut_literally ht]; exact h

theorem count_replace_eq {c : Char} (h : new.count c = p.count c) : (replace p new s).count c = s.count c := by
  conv_rhs => rw [← texts_cut (literally p) s]
  exact Piece.count_fill_eq fun a t ht => by rw [eq_of_hit_mem_cut_literally ht]; exact h

end Text
end Stencil
