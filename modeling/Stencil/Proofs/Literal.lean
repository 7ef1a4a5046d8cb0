import Stencil.Proofs.Default
import Stencil.Proofs.Quotation
import Stencil.Template.Substitute

/-! # Where a quoted default ends

The first closing quote behind the opening one ends a default, unless it stands directly there
(`ends_first_iff`): a literal holds a character at least, so the pass takes an empty default for the
beginning of a longer one, which ends with the next closing quote on the line
(`fillDefaults_emptyDefault`). -/

namespace Stencil
open Text

namespace Placeholder
variable {head literal rest : Text} {quote : Char}

/-- A closing quote in a literal is its very beginning. -/
theorem Takes.infix_iff (h : Takes head quote literal) :
    quote :: closing <:+: literal ↔ quote :: closing <+: literal := by
  refine ⟨fun hin => ?_, List.IsPrefix.isInfix⟩
  obtain ⟨c, tail, rfl⟩ := List.exists_cons_of_ne_nil h.literal_ne_nil
  exact (List.infix_cons_iff.1 hin).resolve_right h.open_tail

theorem Takes.before?_iff (h : Takes head quote literal) (rest : Text) :
    before? (quote :: closing) (literal ++ (quote :: closing ++ rest)) = some literal ↔
      ¬ quote :: closing <+: literal := by
  rw [before?_eq_some_iff (not_mem_closing_of_isQuote h.isQuote), ← h.infix_iff]
  exact ⟨fun ⟨_, _, hno⟩ => hno, fun hno => ⟨rest, rfl, hno⟩⟩

/-- A default that is closed by the first closing quote on its line. -/
structure Closed (head : Text) (quote : Char) (literal : Text) : Prop where
  head_ne_nil : head ≠ []
  head_chars : ∀ c ∈ head, isHead c = true
  isQuote : isQuote quote = true
  one_line : '\n' ∉ literal
  no_closing : ¬ quote :: closing <:+: literal

theorem Closed.takes (h : Closed head quote literal) (hne : literal ≠ []) : Takes head quote literal :=
  ⟨h.head_ne_nil, h.head_chars, h.isQuote, hne, h.one_line, fun hin =>
    h.no_closing (hin.trans (List.tail_suffix literal).isInfix)⟩

/-- The pass takes a closed default for itself exactly if it is not empty. -/
theorem Closed.cut_iff (h : Closed head quote literal) (rest : Text) :
    cut defaulted (withDefault head quote literal ++ rest) =
      .hit literal (withDefault head quote literal) :: cut defaulted rest ↔ literal ≠ [] := by
  constructor
  · rintro hcut rfl
    obtain ⟨a, n, hn⟩ : ∃ a n, defaulted (withDefault head quote [] ++ rest) = some (a, n + 1) := by
      by_contra hno
      rw [show withDefault head quote [] ++ rest = '{' :: _ from rfl,
        cut_of_no_match fun a n hn => hno ⟨a, n, hn⟩] at hcut
      cases hcut
    rw [show withDefault head quote [] ++ rest = '{' :: _ from rfl, cut_of_match hn] at hcut
    obtain rfl := (Piece.hit.inj (List.cons.inj hcut).1).1
    obtain ⟨_, _, _, htakes, -⟩ := defaulted_eq_some_iff.1 hn
    exact htakes.literal_ne_nil rfl
  · intro hne
    exact cut_hit (defaulted_eq_some_iff.2 ⟨head, quote, rest, h.takes hne, rfl, rfl⟩) (braced_ne_nil _)

end Placeholder

open Placeholder

/-- What an empty default makes the pass swallow: all that stands before the next closing quote on
the line. -/
theorem Document.fillDefaults_emptyDefault {head u : Text} {quote : Char} (h : Closed head quote u) (rest : Text) :
    fillDefaults (withDefault head quote [] ++ (u ++ (quote :: closing ++ rest))) =
      Html.escape (quote :: (closing ++ u)) ++ fillDefaults rest := by
  have hmatch := (defaulted_withDefault_nil_iff h.head_chars h.head_ne_nil h.isQuote).2
    ⟨u, rest, rfl, h.no_closing, h.one_line, rfl, rfl⟩
  have htext : withDefault head quote [] ++ (u ++ (quote :: closing ++ rest)) =
      withDefault head quote (quote :: (closing ++ u)) ++ rest := by
    simp [withDefault, braced, closing]
  rw [htext] at hmatch ⊢
  rw [fillDefaults, cut_hit hmatch (braced_ne_nil _), Piece.fill_hit, ← fillDefaults]

/-- A match ends at the first closing quote behind its opening one exactly if its literal does not
begin with one, and a closed default gives way to its own literal exactly if that is not empty. -/
theorem Placeholder.ends_first_iff {s : Text} {span : Piece.Span} {literal : Text}
    (h : (span, literal) ∈ defaults s) :
    (∃ before head quote rest, s = before ++ (withDefault head quote literal ++ rest) ∧
      span = ⟨utf8Size before, utf8Size before + utf8Size (withDefault head quote literal)⟩ ∧
      Takes head quote literal ∧
      (before? (quote :: closing) (literal ++ (quote :: closing ++ rest)) = some literal ↔
        ¬ quote :: closing <+: literal) ∧
      (quote :: closing <:+: literal ↔ quote :: closing <+: literal)) ∧
    ∀ head quote literal, Closed head quote literal → ∀ rest,
      cut defaulted (withDefault head quote literal ++ rest) =
        .hit literal (withDefault head quote literal) :: cut defaulted rest ↔ literal ≠ [] := by
  refine ⟨?_, fun head quote literal hclosed rest => hclosed.cut_iff rest⟩
  obtain ⟨before, t, r, n, rfl, hmatch, ht, rfl⟩ := match_of_mem_spans h
  obtain ⟨head, quote, rest, htakes, htext, rfl⟩ := defaulted_eq_some_iff.1 hmatch
  have ht : t = withDefault head quote literal := by rw [ht, htext, List.take_left]
  have hr : r = rest := List.append_cancel_left (htext.trans (by rw [ht]))
  subst ht hr
  exact ⟨before, head, quote, r, rfl, rfl, htakes, htakes.before?_iff r, htakes.infix_iff⟩

/-- Two defaults on one line. -/
def Placeholder.twoDefaults (first : Text) : Text :=
  withDefault "a".toList '"' first ++ ' ' :: withDefault "b".toList '"' "y".toList

/-- The literal of the match at the front once the first default is empty. -/
def Placeholder.swallowed : Text := '"' :: (closing ++ ' ' :: opening ++ "b??\"y".toList)

/-- The first one ends at its own closing quote, but not if it is empty. -/
theorem Placeholder.ends_of_twoDefaults :
    (∃ before head quote rest, twoDefaults "x".toList = before ++ (withDefault head quote "x".toList ++ rest) ∧
      utf8Size before = 0 ∧
      before? (quote :: closing) ("x".toList ++ (quote :: closing ++ rest)) = some "x".toList) ∧
    (∃ before head quote rest, twoDefaults [] = before ++ (withDefault head quote swallowed ++ rest) ∧
      utf8Size before = 0 ∧ before? (quote :: closing) (swallowed ++ (quote :: closing ++ rest)) ≠ some swallowed) ∧
    Piece.hits (cut defaulted (twoDefaults "x".toList)) =
      [withDefault "a".toList '"' "x".toList, withDefault "b".toList '"' "y".toList] := by
  have hclosed : Closed "a".toList '"' "x".toList := ⟨by decide, by decide, rfl, by decide, by decide⟩
  have hone : ((⟨0, 10⟩ : Piece.Span), "x".toList) ∈ defaults (twoDefaults "x".toList) := by decide +kernel
  have hlong : ((⟨0, 20⟩ : Piece.Span), swallowed) ∈ defaults (twoDefaults []) := by decide +kernel
  refine ⟨?_, ?_, ?_⟩
  · obtain ⟨⟨before, head, quote, rest, htext, hspan, -, hends, -⟩, -⟩ := ends_first_iff hone
    refine ⟨before, head, quote, rest, htext, (Piece.Span.mk.inj hspan).1.symm, hends.2 fun hpre => ?_⟩
    have := hpre.length_le
    simp [closing] at this
  · obtain ⟨⟨before, head, quote, rest, htext, hspan, htakes, hends, -⟩, -⟩ := ends_first_iff hlong
    -- there is no other quote in the text
    obtain rfl : quote = '"' := by
      rcases isQuote_cases htakes.isQuote with h | h
      · exact h
      · have hm : quote ∈ twoDefaults [] := by rw [htext]; simp [withDefault, braced]
        rw [h] at hm
        exact absurd hm (by decide)
    exact ⟨before, head, '"', rest, htext, (Piece.Span.mk.inj hspan).1.symm, fun h => hends.1 h (by decide)⟩
  · rw [twoDefaults, ((ends_first_iff hone).2 _ _ _ hclosed _).2 (by decide)]
    decide +kernel

end Stencil
