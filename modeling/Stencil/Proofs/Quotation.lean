import Mathlib.Data.List.TakeWhile
import Stencil.Placeholder.Slot
import Stencil.Placeholder.Spacing
import Stencil.Proofs.Occurrence
import Stencil.Proofs.Opening

/-! # Quoted text in a placeholder

What the scanner of quoted runs makes of signs (`quotePieces_signs`) and of a quotation
(`quotePieces_quotation`), and what splitting, unquoting and compressing make of such pieces. -/

namespace Stencil
open Text

namespace Placeholder

/-- Text between quotes that no scanner ends early. -/
structure Quotation where
  quote : Char
  inner : Text
  isQuote : isQuote quote = true
  no_quote : quote ∉ inner
  no_escape : '\\' ∉ inner
  no_closing : '}' ∉ inner
  one_line : '\n' ∉ inner

def Quotation.text (d : Quotation) : Text := d.quote :: d.inner ++ [d.quote]

/-- A character of the words and marks between quotations. -/
def isSign (c : Char) : Bool := !isQuote c && !isGap c && !(['\\', '\n', '\x7b', '\x7d'].contains c)

theorem isQuote_cases {c : Char} (h : isQuote c = true) : c = '"' ∨ c = '\'' := by
  simpa [isQuote] using h

theorem not_isQuote_of_isGap {c : Char} (h : isGap c = true) : isQuote c = false ∧ c ≠ '\\' := by
  constructor
  · rw [Bool.eq_false_iff]
    intro hq
    rcases isQuote_cases hq with rfl | rfl <;> revert h <;> decide
  · rintro rfl; revert h; decide

theorem isSign_spec {c : Char} (h : isSign c = true) :
    (isQuote c = false ∧ c ≠ '\\') ∧ isGap c = false ∧ c ≠ '\n' ∧ c ≠ '\x7b' ∧ c ≠ '\x7d' := by
  simp only [isSign, Bool.and_eq_true, Bool.not_eq_true', List.contains_eq_mem, decide_eq_false_iff_not,
    List.mem_cons, List.not_mem_nil, or_false, not_or] at h
  obtain ⟨⟨hquote, hgap⟩, hescape, hrest⟩ := h
  exact ⟨⟨hquote, hescape⟩, hgap, hrest⟩

theorem isGap_of_isPathChar {c : Char} (h : Slot.isPathChar c = true) : isGap c = false := by
  rw [Bool.eq_false_iff]
  intro hg
  rw [isPathChar_eq, isKeyChar, Bool.or_eq_true, Bool.or_eq_true, beq_iff_eq, beq_iff_eq] at h
  rcases h with (h | rfl) | rfl
  · have hranges := ranges_of_isAlphanum h
    simp only [isGap, Bool.or_eq_true, Bool.and_eq_true, decide_eq_true_eq, beq_iff_eq] at hg
    omega
  · revert hg; decide
  · revert hg; decide

theorem isSign_of_isPathChar {c : Char} (h : Slot.isPathChar c = true) : isSign c = true := by
  have hne : ∀ d, Slot.isPathChar d = false → c ≠ d := fun _ => ne_of_holds h
  have hquote : isQuote c = false := by
    rw [Bool.eq_false_iff]
    intro hq
    rcases isQuote_cases hq with hc | hc
    · exact hne '"' (by decide) hc
    · exact hne '\'' (by decide) hc
  have hother : c ∉ ['\\', '\n', '\x7b', '\x7d'] := by
    simp only [List.mem_cons, List.not_mem_nil, or_false, not_or]
    exact ⟨hne _ (by decide), hne _ (by decide), hne _ (by decide), hne _ (by decide)⟩
  simp [isSign, isGap_of_isPathChar h, hquote] at hother ⊢
  exact hother

theorem isSign_of_isKeyChar {c : Char} (h : isKeyChar c = true) : isSign c = true :=
  isSign_of_isPathChar (isPathChar_of_isKeyChar h)

theorem quotePieces_signs {u : Text} (hu : ∀ c ∈ u, isQuote c = false ∧ c ≠ '\\') (s : Text) :
    quotePieces (u ++ s) = u.map .plain ++ quotePieces s := by
  rw [quotePieces, quotePieces]
  induction u with
  | nil => rfl
  | cons c u ih =>
    obtain ⟨hquote, hescape⟩ := hu c List.mem_cons_self
    have hnext : (c == '\\') = false := by simpa using hescape
    rw [List.cons_append, quotePiecesFrom]
    simp only [hquote, Bool.false_and, Bool.false_eq_true, if_false, hnext, List.map_cons, List.cons_append]
    rw [ih fun d hd => hu d (List.mem_cons_of_mem _ hd)]

theorem runLength?_inner {quote : Char} {inner : Text} (hquote : isQuote quote = true) (h : quote ∉ inner)
    (hescape : '\\' ∉ inner) (hline : '\n' ∉ inner) (s : Text) :
    runLength? quote (inner ++ quote :: s) = some (inner.length + 1) := by
  induction inner with
  | nil =>
    rw [List.nil_append, runLength?.eq_def]
    rcases isQuote_cases hquote with rfl | rfl <;> simp
  | cons c inner ih =>
    simp only [List.mem_cons, not_or] at h hescape hline
    have hrest := ih h.2 hescape.2 hline.2
    rw [List.cons_append, runLength?.eq_def]
    simp only [if_neg (Ne.symm hline.1), if_neg (Ne.symm hescape.1), if_neg (Ne.symm h.1), hrest]
    rfl

theorem quotePiecesFrom_skip (escaped : Bool) (u : Text) (c : Char) (s : Text) :
    quotePiecesFrom escaped (u.length + 1) (u ++ c :: s) = quotePiecesFrom (c == '\\') 0 s := by
  induction u generalizing escaped with
  | nil => simp [quotePiecesFrom]
  | cons d u ih => rw [List.cons_append, List.length_cons, quotePiecesFrom, ih]

theorem quotePieces_quotation (d : Quotation) (s : Text) :
    quotePieces (d.text ++ s) = .hit () d.text :: quotePieces s := by
  have hrun : runLength? d.quote (d.inner ++ d.quote :: s) = some (d.inner.length + 1) :=
    runLength?_inner d.isQuote d.no_quote d.no_escape d.one_line s
  have htake : (d.inner ++ d.quote :: s).take (d.inner.length + 1) = d.inner ++ [d.quote] := by
    rw [List.take_append, List.take_of_length_le (Nat.le_succ _), Nat.add_sub_cancel_left]; rfl
  have hquote : (d.quote == '\\') = false := beq_eq_false_iff_ne.2 (ne_of_holds d.isQuote (by decide))
  have htext : d.text ++ s = d.quote :: (d.inner ++ d.quote :: s) := by simp [Quotation.text]
  have hskip := quotePiecesFrom_skip false d.inner d.quote s
  rw [htext, quotePieces, quotePiecesFrom]
  simp only [d.isQuote, Bool.not_false, Bool.and_true, if_true, hrun, htake, hskip, hquote]
  rfl

theorem splitDefault_cons {p : Piece Unit} {ps : List (Piece Unit)}
    (h : ∀ q qs, p = .plain '?' → ps ≠ .plain '?' :: q :: qs) :
    splitDefault (p :: ps) = (p.text ++ (splitDefault ps).1, (splitDefault ps).2) := by
  rw [splitDefault]
  exact fun q qs hp hps => h q qs hp hps

theorem splitDefault_append {ps : List (Piece Unit)} (h : .plain '?' ∉ ps) (qs : List (Piece Unit)) :
    splitDefault (ps ++ qs) = (Piece.texts ps ++ (splitDefault qs).1, (splitDefault qs).2) := by
  induction ps with
  | nil => rfl
  | cons p ps ih =>
    simp only [List.mem_cons, not_or] at h
    rw [List.cons_append, splitDefault_cons fun q qs' hp _ => h.1 hp.symm, ih h.2]
    cases p <;> simp [Piece.text]

theorem splitDefault_quotation (d : Quotation) :
    splitDefault (quotePieces (['?', '?'] ++ d.text)) = ([], some d.text) := by
  have hd : quotePieces (d.text ++ []) = [.hit () d.text] := by rw [quotePieces_quotation]; rfl
  rw [List.append_nil] at hd
  rw [quotePieces_signs (by decide), hd]
  simp [splitDefault]

theorem splitOutside_step {sep : Char} {p : Piece Unit} {ps : List (Piece Unit)} {part : Text} {parts : List Text}
    (h : .plain sep ≠ p) (hps : splitOutside sep ps = part :: parts) :
    splitOutside sep (p :: ps) = (p.text ++ part) :: parts := by
  rw [splitOutside.eq_def]
  cases p with
  | hit a t => simp only [hps]; rfl
  | plain c =>
    have hc : c ≠ sep := fun hc => h (by rw [hc])
    simp only [hps, if_neg hc]; rfl

theorem splitOutside_of_not_mem {sep : Char} {ps : List (Piece Unit)} (h : .plain sep ∉ ps) :
    splitOutside sep ps = [Piece.texts ps] := by
  induction ps with
  | nil => rfl
  | cons p ps ih =>
    simp only [List.mem_cons, not_or] at h
    exact splitOutside_step h.1 (ih h.2)

theorem splitOutside_append_cons {sep : Char} {ps : List (Piece Unit)} (h : .plain sep ∉ ps)
    (qs : List (Piece Unit)) :
    splitOutside sep (ps ++ .plain sep :: qs) = Piece.texts ps :: splitOutside sep qs := by
  induction ps with
  | nil => rw [List.nil_append, splitOutside, if_pos rfl]; rfl
  | cons p ps ih =>
    simp only [List.mem_cons, not_or] at h
    exact splitOutside_step h.1 (ih h.2)

theorem stripQuotes_quoted {quote : Char} {inner : Text} (hquote : isQuote quote = true) (hline : '\n' ∉ inner) :
    stripQuotes (quote :: (inner ++ [quote])) = inner := by
  have hne : ∀ q : Char, q ≠ quote → strip? [q] (quote :: (inner ++ [quote])) = none := by
    intro q hq
    simp [strip?, hq]
  have hwithin : stripEnd? [quote] (inner ++ [quote]) = some inner := stripEnd?_eq_some_iff.2 rfl
  have hsame : strip? [quote] (quote :: (inner ++ [quote])) = some (inner ++ [quote]) := by simp [strip?]
  have hall : '\n' ∉ quote :: (inner ++ [quote]) := by
    have hq : quote ≠ '\n' := ne_of_holds hquote (by decide)
    simp [hline, hq.symm]
  rw [stripQuotes, if_neg hall]
  rcases isQuote_cases hquote with rfl | rfl
  · have hother := hne '\'' (by decide)
    simp [hother, hsame, hwithin]
  · simp [hsame, hwithin]

theorem stripQuotes_quotation (d : Quotation) : stripQuotes d.text = d.inner :=
  stripQuotes_quoted d.isQuote d.one_line

theorem stripQuotes_cases (s : Text) :
    stripQuotes s = s ∨ ∃ quote, isQuote quote = true ∧ s = quote :: (stripQuotes s ++ [quote]) := by
  have hwithin : ∀ {quote u}, (strip? [quote] s).bind (stripEnd? [quote]) = some u → s = quote :: (u ++ [quote]) := by
    intro quote u h
    obtain ⟨r, hr, hu⟩ := Option.bind_eq_some_iff.1 h
    rw [strip?_eq_some_iff.1 hr, stripEnd?_eq_some_iff.1 hu]; rfl
  by_cases hline : '\n' ∈ s
  · exact .inl (if_pos hline)
  · have heq : stripQuotes s = (((strip? ['\''] s).bind (stripEnd? ['\'']) <|>
        (strip? ['"'] s).bind (stripEnd? ['"']))).getD s := if_neg hline
    rw [heq]
    cases hsingle : (strip? ['\''] s).bind (stripEnd? ['\'']) with
    | some u => exact .inr ⟨'\'', rfl, hwithin hsingle⟩
    | none =>
      cases hdouble : (strip? ['"'] s).bind (stripEnd? ['"']) with
      | some u => exact .inr ⟨'"', rfl, hwithin hdouble⟩
      | none => exact .inl rfl

theorem mem_of_mem_stripQuotes {c : Char} {s : Text} (h : c ∈ stripQuotes s) : c ∈ s := by
  rcases stripQuotes_cases s with heq | ⟨quote, -, heq⟩
  · rwa [heq] at h
  · rw [heq]; simp [h]

end Placeholder
end Stencil
