import Mathlib.Data.List.Chain
import Stencil.Proofs.Quotation

/-! # Quotes that nothing closes

A quote opens a run only if a later one of its kind closes it, so what the scanner makes of a text
depends on all that follows. `Scanned` says of pieces that they are what the scanner makes of the text
that they spell (`quotePiecesFrom_eq_iff`). Parts with a plain mark between them are scanned each on its
own, as long as no part leaves a quote open that a later one would close (`scanned_append_mark`). -/

namespace Stencil.Placeholder
open Text Piece

/-- A character that neither quotes nor escapes nor ends a line. -/
def isMark (c : Char) : Bool := !isQuote c && c != '\\' && c != '\n'

theorem isMark_spec {c : Char} (h : isMark c = true) : isQuote c = false ∧ c ≠ '\\' ∧ c ≠ '\n' := by
  simpa [isMark, and_assoc] using h

theorem isMark_of_isGap {c : Char} (h : isGap c = true) : isMark c = true := by
  obtain ⟨hquote, hescape⟩ := not_isQuote_of_isGap h
  have hline : c ≠ '\n' := ne_of_holds h (by decide)
  simp [isMark, hquote, hescape, hline]

section Run
variable {quote c : Char} {u s : Text}

theorem runLength?_cons (hline : c ≠ '\n') (hescape : c ≠ '\\') (hquote : c ≠ quote) (s : Text) :
    runLength? quote (c :: s) = (runLength? quote s).map (· + 1) := by
  rw [runLength?.eq_def]
  simp [hline, hescape, hquote]

theorem runLength?_escape (hline : c ≠ '\n') (s : Text) :
    runLength? quote ('\\' :: c :: s) = (runLength? quote s).map (· + 2) := by
  rw [runLength?.eq_def]
  simp [hline]

theorem runLength?_mark (hquote : isQuote quote = true) (hc : isMark c = true) (s : Text) :
    runLength? quote (c :: s) = (runLength? quote s).map (· + 1) := by
  obtain ⟨hnot, hescape, hline⟩ := isMark_spec hc
  exact runLength?_cons hline hescape (ne_of_holds hquote hnot).symm s

theorem runLength?_quote (hquote : isQuote quote = true) (s : Text) : runLength? quote (quote :: s) = some 1 :=
  runLength?_inner hquote List.not_mem_nil List.not_mem_nil List.not_mem_nil s

theorem exists_of_runLength? {n : Nat} (h : runLength? quote s = some n) :
    ∃ u r, s = u ++ quote :: r ∧ n = u.length + 1 ∧ ∀ r, runLength? quote (u ++ quote :: r) = some n := by
  fun_induction runLength? quote s generalizing n with
  | case1 | case2 | case3 | case4 => cases h
  | case5 d s hline _ ih =>
    -- a backslash and the character behind it belong to the run
    obtain ⟨m, hm, rfl⟩ := Option.map_eq_some_iff.1 h
    obtain ⟨u, r, rfl, rfl, hall⟩ := ih hm
    refine ⟨'\\' :: d :: u, r, rfl, rfl, fun r => ?_⟩
    rw [List.cons_append, List.cons_append, runLength?_escape hline, hall r]; rfl
  | case6 s hline hescape =>
    refine ⟨[], s, rfl, (Option.some.inj h).symm, fun r => ?_⟩
    rw [List.nil_append, runLength?.eq_def]
    simpa [hline, hescape] using h
  | case7 c s hline hescape hquote ih =>
    obtain ⟨m, hm, rfl⟩ := Option.map_eq_some_iff.1 h
    obtain ⟨u, r, rfl, rfl, hall⟩ := ih hm
    refine ⟨c :: u, r, rfl, rfl, fun r => ?_⟩
    rw [List.cons_append, runLength?_cons hline hescape hquote, hall r]; rfl

theorem runLength?_append {n : Nat} (h : runLength? quote u = some n) (s : Text) :
    runLength? quote (u ++ s) = some n := by
  obtain ⟨u, r, rfl, -, hall⟩ := exists_of_runLength? h
  rw [List.append_assoc, List.cons_append, hall]

theorem runLength?_eq_none_of_append (h : runLength? quote (u ++ s) = none) : runLength? quote u = none := by
  cases hu : runLength? quote u with
  | none => rfl
  | some n => rw [runLength?_append hu] at h; cases h

/-- What a line without the closing quote does to the search behind it: nothing, or a backslash at its end
takes the next character with it. -/
theorem runLength?_of_open (h : runLength? quote u = none) (hline : '\n' ∉ u) :
    (∀ s, runLength? quote (u ++ s) = none ↔ runLength? quote s = none) ∨
      u.getLast? = some '\\' ∧ ∀ c s, c ≠ '\n' → (runLength? quote (u ++ c :: s) = none ↔ runLength? quote s = none) := by
  fun_induction runLength? quote u with
  | case1 => exact .inl fun _ => Iff.rfl
  | case2 | case4 => simp at hline
  | case3 => exact .inr ⟨rfl, fun c s hc => by rw [List.cons_append, List.nil_append, runLength?_escape hc, Option.map_eq_none_iff]⟩
  | case5 d u hd _ ih =>
    simp only [List.mem_cons, not_or] at hline
    have hstep : ∀ s, runLength? quote ('\\' :: d :: (u ++ s)) = none ↔ runLength? quote (u ++ s) = none :=
      fun s => by rw [runLength?_escape hd, Option.map_eq_none_iff]
    rcases ih (Option.map_eq_none_iff.1 h) hline.2.2 with hu | ⟨hlast, hu⟩
    · exact .inl fun s => (hstep s).trans (hu s)
    · exact .inr ⟨by simp [List.getLast?_cons, hlast], fun c s hc => (hstep (c :: s)).trans (hu c s hc)⟩
  | case6 => cases h
  | case7 c u hc hescape hquote ih =>
    simp only [List.mem_cons, not_or] at hline
    have hstep : ∀ s, runLength? quote (c :: (u ++ s)) = none ↔ runLength? quote (u ++ s) = none :=
      fun s => by rw [runLength?_cons hc hescape hquote, Option.map_eq_none_iff]
    rcases ih (Option.map_eq_none_iff.1 h) hline.2 with hu | ⟨hlast, hu⟩
    · exact .inl fun s => (hstep s).trans (hu s)
    · exact .inr ⟨by simp [List.getLast?_cons, hlast], fun d s hd => (hstep (d :: s)).trans (hu d s hd)⟩

theorem runLength?_append_eq_none_iff (hline : '\n' ∉ u) (hlast : u.getLast? ≠ some '\\') :
    runLength? quote (u ++ s) = none ↔ runLength? quote u = none ∧ runLength? quote s = none := by
  have hbehind : runLength? quote u = none → (runLength? quote (u ++ s) = none ↔ runLength? quote s = none) := fun hu =>
    (runLength?_of_open hu hline).elim (fun hopen => hopen s) fun h => absurd h.1 hlast
  refine ⟨fun h => ?_, fun ⟨hu, hs⟩ => (hbehind hu).2 hs⟩
  have hu := runLength?_eq_none_of_append h
  exact ⟨hu, (hbehind hu).1 h⟩

/-- A mark is passed over whether a backslash stands before it or not. -/
theorem runLength?_append_mark_eq_none_iff (hquote : isQuote quote = true) (hc : isMark c = true)
    (hline : '\n' ∉ u) :
    runLength? quote (u ++ c :: s) = none ↔ runLength? quote u = none ∧ runLength? quote s = none := by
  have hbehind : runLength? quote u = none → (runLength? quote (u ++ c :: s) = none ↔ runLength? quote s = none) := by
    intro hu
    rcases runLength?_of_open hu hline with hopen | ⟨-, hopen⟩
    · rw [hopen, runLength?_mark hquote hc, Option.map_eq_none_iff]
    · exact hopen c s (isMark_spec hc).2.2
  refine ⟨fun h => ?_, fun ⟨hu, hs⟩ => (hbehind hu).2 hs⟩
  have hu := runLength?_eq_none_of_append h
  exact ⟨hu, (hbehind hu).1 h⟩

theorem runLength?_requoted (h : runLength? '\'' s = none) (hline : '\n' ∉ s) :
    runLength? '\'' ('"' :: (stripQuotes s ++ ['"'])) = none := by
  rcases stripQuotes_cases s with heq | ⟨quote, hquote, heq⟩
  · -- the quotes are new, and the last one may stand behind a backslash
    rw [heq, runLength?_cons (by decide) (by decide) (by decide), Option.map_eq_none_iff]
    rcases runLength?_of_open h hline with hopen | ⟨-, hopen⟩
    · exact (hopen ['"']).2 rfl
    · exact (hopen '"' [] (by decide)).2 rfl
  · rcases isQuote_cases hquote with rfl | rfl
    · rwa [← heq]
    · rw [heq, runLength?_quote rfl] at h
      cases h

end Run

/-! ### Pieces that the scanner makes -/

/-- A quoted run: its quote, and all that the search for the closing one takes. -/
def IsRun (t : Text) : Prop := ∃ quote u, t = quote :: u ∧ isQuote quote = true ∧ runLength? quote u = some u.length

/-- The scanner makes these pieces of the text that they spell, behind a backslash if `escaped`. -/
def Scanned : (escaped : Bool) → List (Piece Unit) → Prop
  | _, [] => True
  | escaped, .plain c :: ps =>
    (isQuote c = true → escaped = false → runLength? c (texts ps) = none) ∧ Scanned (c == '\\') ps
  | escaped, .hit _ t :: ps => escaped = false ∧ IsRun t ∧ Scanned false ps

theorem IsRun.exists_eq {t : Text} (h : IsRun t) :
    ∃ quote u, t = quote :: (u ++ [quote]) ∧ isQuote quote = true ∧
      ∀ s, runLength? quote (u ++ quote :: s) = some (u.length + 1) := by
  obtain ⟨quote, v, rfl, hquote, hrun⟩ := h
  obtain ⟨u, r, rfl, hlen, hall⟩ := exists_of_runLength? hrun
  obtain rfl : r = [] := by
    rw [List.length_append, List.length_cons] at hlen
    exact List.length_eq_zero_iff.1 (by omega)
  exact ⟨quote, u, rfl, hquote, fun s => by simpa using hall s⟩

theorem quotePiecesFrom_of_scanned {escaped : Bool} {ps : List (Piece Unit)} (h : Scanned escaped ps) :
    quotePiecesFrom escaped 0 (texts ps) = ps := by
  induction ps generalizing escaped with
  | nil => rfl
  | cons p ps ih =>
    cases p with
    | plain c =>
      obtain ⟨hopen, hps⟩ := h
      have hnone : (if isQuote c && !escaped then runLength? c (texts ps) else none) = none := by
        split
        · next hc =>
          obtain ⟨hquote, hesc⟩ := Bool.and_eq_true_iff.1 hc
          exact hopen hquote (by simpa using hesc)
        · rfl
      rw [texts_plain, quotePiecesFrom]
      simp only [hnone, ih hps]
    | hit a t =>
      -- the search from the opening quote ends where the run ends, whatever the later pieces are
      obtain ⟨rfl, hrun, hps⟩ := h
      obtain ⟨quote, u, rfl, hquote, hlen⟩ := hrun.exists_eq
      have htext : texts (.hit a (quote :: (u ++ [quote])) :: ps) = quote :: (u ++ quote :: texts ps) := by simp
      have htake : (u ++ quote :: texts ps).take (u.length + 1) = u ++ [quote] := by
        rw [List.take_append, List.take_of_length_le (Nat.le_succ _), Nat.add_sub_cancel_left]; rfl
      have hskip := quotePiecesFrom_skip false u quote (texts ps)
      have hnext : (quote == '\\') = false := beq_eq_false_iff_ne.2 (ne_of_holds hquote (by decide))
      rw [htext, quotePiecesFrom]
      simp only [hquote, Bool.not_false, Bool.and_true, if_true, hlen, htake, hskip, hnext, ih hps]

theorem scanned_quotePiecesFrom (escaped : Bool) (s : Text) : Scanned escaped (quotePiecesFrom escaped 0 s) := by
  -- on the length, since a run takes many characters at once
  induction hn : s.length using Nat.strong_induction_on generalizing escaped s with
  | _ n ih =>
    subst hn
    cases s with
    | nil => exact trivial
    | cons c s =>
      rw [quotePiecesFrom]
      cases hrun : (if isQuote c && !escaped then runLength? c s else none) with
      | none =>
        refine ⟨fun hquote hesc => ?_, ih s.length (Nat.lt_succ_self _) _ s rfl⟩
        rw [texts_quotePiecesFrom, List.drop_zero]
        simpa [hquote, hesc] using hrun
      | some n =>
        split at hrun
        · next hc =>
          obtain ⟨hquote, hesc⟩ := Bool.and_eq_true_iff.1 hc
          obtain ⟨u, r, rfl, rfl, hall⟩ := exists_of_runLength? hrun
          have hnext : (c == '\\') = false := beq_eq_false_iff_ne.2 (ne_of_holds hquote (by decide))
          have htake : (u ++ c :: r).take (u.length + 1) = u ++ [c] := by
            rw [List.take_append, List.take_of_length_le (Nat.le_succ _), Nat.add_sub_cancel_left]; rfl
          simp only [htake, quotePiecesFrom_skip, hnext]
          refine ⟨by simpa using hesc, ⟨c, u ++ [c], rfl, hquote, by simpa using hall []⟩, ?_⟩
          exact ih r.length (by simp; omega) false r rfl
        · cases hrun

theorem quotePiecesFrom_eq_iff {escaped : Bool} {s : Text} {ps : List (Piece Unit)} :
    quotePiecesFrom escaped 0 s = ps ↔ Scanned escaped ps ∧ texts ps = s := by
  constructor
  · rintro rfl
    exact ⟨scanned_quotePiecesFrom escaped s, texts_quotePiecesFrom escaped 0 s⟩
  · rintro ⟨h, rfl⟩
    exact quotePiecesFrom_of_scanned h

theorem quotePieces_eq_iff {s : Text} {ps : List (Piece Unit)} :
    quotePieces s = ps ↔ Scanned false ps ∧ texts ps = s :=
  quotePiecesFrom_eq_iff

theorem scanned_quotePieces (s : Text) : Scanned false (quotePieces s) := scanned_quotePiecesFrom false s

/-- Whether a quote of a kind stands among the pieces that opens no run, though no backslash precedes it. -/
def leavesOpen (quote : Char) : (escaped : Bool) → List (Piece Unit) → Bool
  | _, [] => false
  | escaped, .plain c :: ps => (c == quote && !escaped) || leavesOpen quote (c == '\\') ps
  | _, .hit .. :: ps => leavesOpen quote false ps

section Parts
variable {escaped : Bool} {ps qs : List (Piece Unit)}

theorem scanned_mark {c : Char} (hc : isMark c = true) : Scanned escaped (.plain c :: ps) ↔ Scanned false ps := by
  obtain ⟨hquote, hescape, -⟩ := isMark_spec hc
  have hnext : (c == '\\') = false := beq_eq_false_iff_ne.2 hescape
  simp [Scanned, hquote, hnext]

theorem Scanned.of_append (h : Scanned escaped (ps ++ qs)) : Scanned escaped ps := by
  induction ps generalizing escaped with
  | nil => exact trivial
  | cons p ps ih =>
    cases p with
    | plain c =>
      refine ⟨fun hquote hesc => ?_, ih h.2⟩
      have hopen : runLength? c (texts (ps ++ qs)) = none := h.1 hquote hesc
      rw [texts_append] at hopen
      exact runLength?_eq_none_of_append hopen
    | hit a t => exact ⟨h.1, h.2.1, ih h.2.2⟩

theorem Scanned.isRun {a : Unit} {t : Text} (h : Scanned escaped ps) (ht : .hit a t ∈ ps) : IsRun t := by
  induction ps generalizing escaped with
  | nil => cases ht
  | cons p ps ih =>
    cases p with
    | plain c => exact ih h.2 (by simpa using ht)
    | hit b u =>
      rcases List.mem_cons.1 ht with ht | ht
      · obtain ⟨rfl, rfl⟩ := Piece.hit.inj ht
        exact h.2.1
      · exact ih h.2.2 ht

/-- What ends the text is a piece of its own, unless it is a quote. -/
theorem Scanned.getLast?_texts {c : Char} (h : Scanned escaped ps) (hc : isQuote c = false)
    (hlast : (texts ps).getLast? = some c) : ps.getLast? = some (.plain c) := by
  rcases List.eq_nil_or_concat' ps with rfl | ⟨qs, q, rfl⟩
  · cases hlast
  · cases q with
    | plain d => simpa using hlast
    | hit a t =>
      obtain ⟨quote, u, rfl, hquote, -⟩ := (h.isRun (List.mem_append_right qs List.mem_cons_self)).exists_eq
      have hend : quote = c := by simpa [List.getLast?_cons] using hlast
      rw [hend, hc] at hquote
      cases hquote

/-- Parts with a mark between them are scanned each on its own, unless the first leaves a quote open that
the second closes. -/
theorem scanned_append_mark {c : Char} (hc : isMark c = true) (hline : '\n' ∉ texts ps) :
    Scanned escaped (ps ++ .plain c :: qs) ↔ Scanned escaped ps ∧ Scanned false qs ∧
      ∀ quote, isQuote quote = true → leavesOpen quote escaped ps = true → runLength? quote (texts qs) = none := by
  induction ps generalizing escaped with
  | nil =>
    obtain ⟨hquote, hescape, -⟩ := isMark_spec hc
    have hnext : (c == '\\') = false := beq_eq_false_iff_ne.2 hescape
    simp [Scanned, leavesOpen, hquote, hnext]
  | cons p ps ih =>
    cases p with
    | plain d =>
      -- an open quote `d` must stay open over the rest of the first part and over the second part
      have hps : '\n' ∉ texts ps := fun hm => hline (List.mem_cons_of_mem _ hm)
      simp only [List.cons_append, Scanned, ih hps, texts_append, texts_plain, leavesOpen, Bool.or_eq_true,
        Bool.and_eq_true, beq_iff_eq, Bool.not_eq_true']
      constructor
      · rintro ⟨hopen, hps', hqs, hlater⟩
        have hboth := fun hquote hesc => (runLength?_append_mark_eq_none_iff hquote hc hps).1 (hopen hquote hesc)
        refine ⟨⟨fun hquote hesc => (hboth hquote hesc).1, hps'⟩, hqs, ?_⟩
        rintro quote hquote (⟨rfl, hesc⟩ | hlate)
        · exact (hboth hquote hesc).2
        · exact hlater quote hquote hlate
      · rintro ⟨⟨hopen, hps'⟩, hqs, hlater⟩
        refine ⟨fun hquote hesc => ?_, hps', hqs, fun quote hquote hlate => hlater quote hquote (.inr hlate)⟩
        exact (runLength?_append_mark_eq_none_iff hquote hc hps).2
          ⟨hopen hquote hesc, hlater d hquote (.inl ⟨rfl, hesc⟩)⟩
    | hit a t =>
      have hps : '\n' ∉ texts ps := fun hm => hline (List.mem_append_right _ hm)
      simp only [List.cons_append, Scanned, ih hps, leavesOpen, and_assoc]

end Parts
end Stencil.Placeholder
