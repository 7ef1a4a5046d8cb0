import Stencil.Text.Basic

/-! # Escaping for HTML

Five characters are written as entities. Main statements: `unescape_escape` (nothing is lost) and
`escape_append` (escaping goes character by character). -/

namespace Stencil.Html
open Text

/-- The entity of a character that has one. -/
def entity? (c : Char) : Option Text :=
  if c = '&' then some "&amp;".toList
  else if c = '<' then some "&lt;".toList
  else if c = '>' then some "&gt;".toList
  else if c = '"' then some "&quot;".toList
  else if c = '\'' then some "&#039;".toList
  else none

def escapeChar (c : Char) : Text := (entity? c).getD [c]

def escape (s : Text) : Text := s.flatMap escapeChar

@[simp] theorem escape_nil : escape [] = [] := rfl

@[simp] theorem escape_cons (c : Char) (s : Text) : escape (c :: s) = escapeChar c ++ escape s := rfl

theorem escape_append (s t : Text) : escape (s ++ t) = escape s ++ escape t := by
  simp [escape, List.flatMap_append]

/-- Reads once from left to right; each of the five entities stands for its character. -/
def unescape : Text → Text
  | '&' :: 'a' :: 'm' :: 'p' :: ';' :: s => '&' :: unescape s
  | '&' :: 'l' :: 't' :: ';' :: s => '<' :: unescape s
  | '&' :: 'g' :: 't' :: ';' :: s => '>' :: unescape s
  | '&' :: 'q' :: 'u' :: 'o' :: 't' :: ';' :: s => '"' :: unescape s
  | '&' :: '#' :: '0' :: '3' :: '9' :: ';' :: s => '\'' :: unescape s
  | c :: s => c :: unescape s
  | [] => []

theorem unescape_escapeChar_append (c : Char) (s : Text) :
    unescape (escapeChar c ++ s) = c :: unescape s := by
  simp only [escapeChar, entity?]
  repeat' split
  all_goals first
    | (subst c; simp [unescape])
    | (simp only [Option.getD_none, List.cons_append, List.nil_append]
       rw [unescape] <;> intros <;> simp_all)

theorem unescape_escape (s : Text) : unescape (escape s) = s := by
  induction s with
  | nil => rfl
  | cons c s ih => rw [escape_cons, unescape_escapeChar_append, ih]

end Stencil.Html
