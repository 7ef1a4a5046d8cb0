import Stencil.Proofs.Opening

/-! # Quoted defaults

What the pass for defaults takes, exactly (`defaulted_eq_some_iff`), and what it passes by. -/

namespace Stencil
open Text

namespace Text

/-- A pattern that begins with a character of its own does not begin within `u` and end behind it. -/
theorem prefix_of_prefix_append {q : Char} {p u s : Text} (hq : q ∉ p) (hu : u ≠ [])
    (h : q :: p <+: u ++ q :: s) : q :: p <+: u := by
  obtain ⟨t, ht⟩ := h
  rcases List.append_eq_append_iff.1 ht with ⟨x, hux, -⟩ | ⟨x, hpx, hx⟩
  · exact ⟨x, hux.symm⟩
  · cases x with
    | nil => exact ⟨[], by rw [hpx, List.append_nil, List.append_nil]⟩
    | cons d x =>
      obtain ⟨c, u, rfl⟩ := List.exists_cons_of_ne_nil hu
      obtain rfl := (List.cons.inj hx).1
      have hp : p = u ++ q :: x := (List.cons.inj hpx).2
      exact absurd (hp ▸ List.mem_append_right u List.mem_cons_self) hq

theorem before?_eq_some_iff {q : Char} {p s u : Text} (hq : q ∉ p) :
    before? (q :: p) s = some u ↔ ∃ r, s = u ++ (q :: p ++ r) ∧ ¬ q :: p <:+: u := by
  induction s generalizing u with
  | nil =>
    have hnone : before? (q :: p) [] = none := rfl
    rw [hnone]
    refine iff_of_false (by simp) ?_
    rintro ⟨r, hr, -⟩
    simp at hr
  | cons c s ih =>
    rw [before?]
    by_cases hstart : startsWith (q :: p) (c :: s) = true
    · rw [if_pos hstart, Option.some.injEq]
      obtain ⟨r, hr⟩ := startsWith_iff.1 hstart
      constructor
      · rintro rfl
        exact ⟨r, hr, by simp⟩
      · rintro ⟨r', hr', hno⟩
        by_contra hu
        -- the occurrence at the front cannot reach over the end of `u`
        have hpre : q :: p <+: u ++ q :: (p ++ r') := ⟨r, by rw [← hr, hr']; rfl⟩
        exact hno (prefix_of_prefix_append hq (fun h => hu h.symm) hpre).isInfix
    · rw [if_neg hstart, Option.map_eq_some_iff]
      constructor
      · rintro ⟨v, hv, rfl⟩
        obtain ⟨r, rfl, hno⟩ := (ih (u := v)).1 hv
        refine ⟨r, rfl, fun hin => ?_⟩
        rcases List.infix_cons_iff.1 hin with ⟨t, ht⟩ | hin
        · have hfront : c :: v ++ (q :: p ++ r) = q :: p ++ (t ++ (q :: p ++ r)) := by
            rw [← ht, List.append_assoc]
          exact hstart (startsWith_iff.2 ⟨_, hfront⟩)
        · exact hno hin
      · rintro ⟨r, hr, hno⟩
        cases u with
        | nil => exact absurd (startsWith_iff.2 ⟨r, hr⟩) hstart
        | cons d v =>
          obtain ⟨rfl, hs⟩ := List.cons.inj hr
          exact ⟨v, (ih (u := v)).2 ⟨r, hs, fun hin => hno (List.infix_cons hin)⟩, rfl⟩

end Text

namespace Placeholder

/-- A character that may stand before the mark of a default. -/
def isHead (c : Char) : Bool := c != '?' && c != '{' && c != '}'

/-- A placeholder with a quoted default after `head`. -/
def withDefault (head : Text) (quote : Char) (literal : Text) : Text :=
  braced (head ++ '?' :: '?' :: quote :: (literal ++ [quote]))

/-- The parts of a default as the pass takes it: behind its first character, the literal holds no
quote that closing braces follow. -/
structure Takes (head : Text) (quote : Char) (literal : Text) : Prop where
  head_ne_nil : head ≠ []
  head_chars : ∀ c ∈ head, isHead c = true
  isQuote : isQuote quote = true
  literal_ne_nil : literal ≠ []
  one_line : '\n' ∉ literal
  open_tail : ¬ quote :: closing <:+: literal.tail

variable {head literal s : Text} {quote : Char}

theorem withDefault_append (head literal s : Text) (quote : Char) :
    withDefault head quote literal ++ s =
      opening ++ (head ++ ('?' :: '?' :: quote :: (literal ++ (quote :: closing ++ s)))) := by
  simp [withDefault, braced]

theorem length_withDefault (head literal : Text) (quote : Char) :
    (withDefault head quote literal).length = head.length + literal.length + 8 := by
  simp [withDefault]
  omega

theorem not_mem_closing_of_isQuote (h : isQuote quote = true) : quote ∉ closing := by
  intro hm
  obtain rfl : quote = '}' := by simpa [closing] using hm
  revert h; decide

theorem takeWhile_head (hhead : ∀ c ∈ head, isHead c = true) {c : Char} (hc : isHead c = false) (s : Text) :
    (head ++ c :: s).takeWhile isHead = head :=
  takeWhile_run hhead fun d hd => by obtain rfl := Option.some.inj hd; exact hc

/-- What the pass makes of the text behind a mark, `size` characters of head being in front of it. -/
def afterMark? (size : Nat) : Text → Option (Text × Nat)
  | quote :: first :: more =>
    if !Placeholder.isQuote quote then none else
    (before? (quote :: closing) more).bind fun u =>
      if '\n' ∈ first :: u then none else some (first :: u, size + (first :: u).length + 8)
  | _ => none

theorem defaulted_opening (hhead : ∀ c ∈ head, isHead c = true) (hne : head ≠ []) {c : Char}
    (hc : isHead c = false) (s : Text) :
    defaulted (opening ++ (head ++ c :: s)) = (strip? ['?', '?'] (c :: s)).bind (afterMark? head.length) := by
  have hempty : ¬ head.isEmpty = true := by simpa using hne
  simp only [defaulted, strip?_append, Option.bind_eq_bind, Option.bind_some,
    show (fun c : Char => c != '?' && c != '{' && c != '}') = isHead from rfl, takeWhile_head hhead hc,
    if_neg hempty, List.drop_left]
  rfl

theorem afterMark?_eq_some_iff {size n : Nat} :
    afterMark? size s = some (literal, n) ↔ ∃ quote rest, s = quote :: (literal ++ (quote :: closing ++ rest)) ∧
      isQuote quote = true ∧ literal ≠ [] ∧ '\n' ∉ literal ∧ ¬ quote :: closing <:+: literal.tail ∧
      n = size + literal.length + 8 := by
  constructor
  · intro h
    match s, h with
    | quote :: first :: more, h =>
      rw [afterMark?] at h
      split at h
      · cases h
      · next hquote =>
        have hquote : isQuote quote = true := by simpa using hquote
        obtain ⟨u, hu, h⟩ := Option.bind_eq_some_iff.1 h
        split at h
        · cases h
        · next hline =>
          obtain ⟨rfl, rfl⟩ := Prod.mk.inj (Option.some.inj h)
          obtain ⟨rest, rfl, hno⟩ := (before?_eq_some_iff (not_mem_closing_of_isQuote hquote)).1 hu
          exact ⟨quote, rest, rfl, hquote, List.cons_ne_nil _ _, hline, hno, rfl⟩
  · rintro ⟨quote, rest, rfl, hquote, hne, hline, hno, rfl⟩
    obtain ⟨first, u, rfl⟩ := List.exists_cons_of_ne_nil hne
    have hbefore : before? (quote :: closing) (u ++ (quote :: closing ++ rest)) = some u :=
      (before?_eq_some_iff (not_mem_closing_of_isQuote hquote)).2 ⟨rest, rfl, hno⟩
    rw [List.cons_append, afterMark?, hbefore, hquote, Option.bind_some, if_neg hline]
    rfl

/-- A match of the pass, whatever stands behind it. -/
theorem defaulted_eq_some_iff {n : Nat} :
    defaulted s = some (literal, n) ↔ ∃ head quote rest, Takes head quote literal ∧
      s = withDefault head quote literal ++ rest ∧ n = (withDefault head quote literal).length := by
  constructor
  · intro h
    have h' := h
    simp only [defaulted, Option.bind_eq_bind, Option.bind_eq_some_iff] at h'
    obtain ⟨rest, hrest, h'⟩ := h'
    obtain rfl := strip?_eq_some_iff.1 hrest
    split at h'
    · cases h'
    · next hempty =>
      obtain ⟨after, hafter, -⟩ := Option.bind_eq_some_iff.1 h'
      have hne : rest.takeWhile isHead ≠ [] := fun h0 => hempty (List.isEmpty_iff.2 h0)
      have hchars : ∀ c ∈ rest.takeWhile isHead, isHead c = true := fun c hc => List.mem_takeWhile_imp hc
      -- the text is the head, the mark and what follows it
      have hsplit : rest = rest.takeWhile isHead ++ '?' :: '?' :: after := by
        conv_lhs => rw [← List.takeWhile_append_dropWhile (p := isHead) (l := rest)]
        rw [← drop_length_takeWhile]
        exact congrArg _ (strip?_eq_some_iff.1 hafter)
      rw [hsplit, defaulted_opening hchars hne rfl, show strip? ['?', '?'] ('?' :: '?' :: after) = some after from rfl,
        Option.bind_some] at h
      obtain ⟨quote, tail, rfl, hquote, hlit, hline, hno, rfl⟩ := afterMark?_eq_some_iff.1 h
      refine ⟨rest.takeWhile isHead, quote, tail, ⟨hne, hchars, hquote, hlit, hline, hno⟩, ?_, ?_⟩
      · rw [withDefault_append, ← hsplit]
      · rw [length_withDefault]
  · rintro ⟨head, quote, rest, h, rfl, rfl⟩
    rw [withDefault_append, defaulted_opening h.head_chars h.head_ne_nil rfl,
      show strip? ['?', '?'] ('?' :: '?' :: quote :: (literal ++ (quote :: closing ++ rest))) = some _ from rfl,
      Option.bind_some, afterMark?_eq_some_iff]
    exact ⟨quote, rest, rfl, h.isQuote, h.literal_ne_nil, h.one_line, h.open_tail, length_withDefault _ _ _⟩

theorem defaulted_quoted (hhead : ∀ c ∈ head, isHead c = true) (hne : head ≠ []) (hquote : isQuote quote = true)
    (hliteral : literal ≠ []) (hclean : quote ∉ literal) (hline : '\n' ∉ literal) (s : Text) :
    defaulted (withDefault head quote literal ++ s) =
      some (literal, (withDefault head quote literal).length) := by
  have hopen : ¬ quote :: closing <:+: literal.tail := fun hin =>
    hclean (List.mem_of_mem_tail (hin.subset List.mem_cons_self))
  exact defaulted_eq_some_iff.2 ⟨head, quote, s, ⟨hne, hhead, hquote, hliteral, hline, hopen⟩, rfl, rfl⟩

theorem cut_withDefault (hhead : ∀ c ∈ head, isHead c = true) (hne : head ≠ []) (hquote : isQuote quote = true)
    (hliteral : literal ≠ []) (hclean : quote ∉ literal) (hline : '\n' ∉ literal) :
    cut defaulted (withDefault head quote literal) = [.hit literal (withDefault head quote literal)] :=
  cut_whole (defaulted_quoted hhead hne hquote hliteral hclean hline) (braced_ne_nil _)

/-- Behind an empty literal the search goes on: the first closing quote on the rest of the line ends
the match. -/
theorem defaulted_withDefault_nil_iff (hhead : ∀ c ∈ head, isHead c = true) (hne : head ≠ [])
    (hquote : isQuote quote = true) {n : Nat} :
    defaulted (withDefault head quote [] ++ s) = some (literal, n) ↔ ∃ u rest, s = u ++ (quote :: closing ++ rest) ∧
      ¬ quote :: closing <:+: u ∧ '\n' ∉ u ∧ literal = quote :: (closing ++ u) ∧
      n = (withDefault head quote literal).length := by
  have hq := not_mem_closing_of_isQuote hquote
  rw [withDefault_append, defaulted_opening hhead hne rfl, List.nil_append,
    show strip? ['?', '?'] ('?' :: '?' :: quote :: (quote :: closing ++ s)) = some (quote :: quote :: (closing ++ s))
      from rfl, Option.bind_some, afterMark?_eq_some_iff]
  constructor
  · rintro ⟨quote', rest, htext, -, hlit, hline, hno, rfl⟩
    obtain ⟨rfl, hbehind⟩ := List.cons.inj htext
    obtain ⟨c, tail, rfl⟩ := List.exists_cons_of_ne_nil hlit
    obtain ⟨rfl, htail⟩ := List.cons.inj hbehind
    rcases List.append_eq_append_iff.1 htail with ⟨u, rfl, hs⟩ | ⟨x, hx, hrest⟩
    · refine ⟨u, rest, hs, fun hin => hno ?_, fun hm => hline ?_, rfl, by rw [length_withDefault]⟩
      · exact hin.trans (List.suffix_append closing u).isInfix
      · exact List.mem_cons_of_mem _ (List.mem_append_right _ hm)
    · cases x with
      | nil =>
        rw [List.append_nil] at hx
        refine ⟨[], rest, hrest.symm, ?_, List.not_mem_nil, by rw [← hx]; rfl, by rw [length_withDefault]⟩
        simp
      | cons d x =>
        obtain rfl := (List.cons.inj hrest).1
        exact absurd (hx ▸ List.mem_append_right tail List.mem_cons_self) hq
  · rintro ⟨u, rest, rfl, hno, hline, rfl, rfl⟩
    refine ⟨quote, rest, by simp, hquote, List.cons_ne_nil _ _, ?_, fun hin => hno ?_, by rw [length_withDefault]⟩
    · have hn : '\n' ≠ quote := (ne_of_holds hquote (by decide)).symm
      simp [closing, hn, hline]
    · -- the braces in front of `u` are no part of an occurrence, which begins with the quote
      rw [List.tail_cons] at hin
      obtain ⟨v, w, hvw⟩ := hin
      rw [List.append_assoc] at hvw
      rcases List.append_eq_append_iff.1 hvw.symm with ⟨x, rfl, hx⟩ | ⟨x, hx, hrest⟩
      · exact ⟨x, w, by rw [hx, List.append_assoc]⟩
      · cases x with
        | nil => exact ⟨[], w, hrest⟩
        | cons d x =>
          obtain rfl := (List.cons.inj hrest).1
          exact absurd (hx ▸ List.mem_append_right v List.mem_cons_self) hq

theorem defaulted_withDefault_nil (hhead : ∀ c ∈ head, isHead c = true) (hne : head ≠ [])
    (hquote : isQuote quote = true) : defaulted (withDefault head quote []) = none := by
  rw [Option.eq_none_iff_forall_ne_some]
  rintro ⟨literal, n⟩ h
  rw [← List.append_nil (withDefault head quote []), defaulted_withDefault_nil_iff hhead hne hquote] at h
  obtain ⟨u, rest, hnil, -⟩ := h
  simp at hnil

theorem defaulted_braced (hhead : ∀ c ∈ head, isHead c = true) (hne : head ≠ []) :
    defaulted (braced head) = none := by
  rw [braced, List.append_assoc]
  exact defaulted_opening hhead hne rfl _

theorem defaulted_eq_none_of_no_opening (h : strip? opening s = none) : defaulted s = none := by
  simp [defaulted, h]

/-- A literal holds a character and stays on its line; the quotes around it stand in the text. -/
theorem of_defaulted_eq_some {n : Nat} (h : defaulted s = some (literal, n)) :
    literal ≠ [] ∧ '\n' ∉ literal ∧ n = ((s.drop 2).takeWhile isHead).length + literal.length + 8 ∧
      ∃ c ∈ s, isQuote c = true := by
  obtain ⟨head, quote, rest, htakes, rfl, rfl⟩ := defaulted_eq_some_iff.1 h
  have hdrop : (withDefault head quote literal ++ rest).drop 2 =
      head ++ '?' :: '?' :: quote :: (literal ++ (quote :: closing ++ rest)) := by
    rw [withDefault_append]; rfl
  refine ⟨htakes.literal_ne_nil, htakes.one_line, ?_, quote, by simp [withDefault_append], htakes.isQuote⟩
  rw [hdrop, takeWhile_head htakes.head_chars rfl, length_withDefault]

theorem defaulted_eq_none_of_no_quote (h : ∀ c ∈ s, isQuote c = false) : defaulted s = none := by
  rw [Option.eq_none_iff_forall_ne_some]
  rintro ⟨literal, n⟩ hs
  obtain ⟨-, -, -, c, hc, hquote⟩ := of_defaulted_eq_some hs
  rw [h c hc] at hquote; cases hquote

theorem cut_defaulted_braced {body : Text} (hb : '{' ∉ body) (h : defaulted (braced body) = none) :
    cut defaulted (braced body) = (braced body).map .plain := by
  have hno : '{' ∉ body ++ closing := by simp [hb, closing]
  refine cut_of_never fun v w hvw hw => ?_
  cases v with
  | nil => rwa [← show braced body = w from hvw]
  | cons c v =>
    refine defaulted_eq_none_of_no_opening ?_
    have hrest : '{' :: (body ++ closing) = v ++ w := (List.cons.inj hvw).2
    cases v with
    | nil =>
      rw [← show '{' :: (body ++ closing) = w from hrest]
      exact strip?_opening_cons fun _ hd => hno (List.mem_of_mem_head? hd)
    | cons d v =>
      -- behind the opening there is no further brace to begin another
      have hw' : body ++ closing = v ++ w := (List.cons.inj hrest).2
      exact strip?_opening_of_not_mem fun hm => hno (hw' ▸ List.mem_append_right _ hm)

end Placeholder
end Stencil
