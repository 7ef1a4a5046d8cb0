import Stencil.Text.Basic

/-! # Cutting a text at matches

`cut m s` reads `s` once from left to right. Where the matcher `m` finds a match at the head of what
is left, the matched text becomes a `hit` and reading goes on behind it; any other character stays
`plain`. Main statements: `texts_cut` (nothing is lost) and the equations `cut_of_match` and
`cut_of_no_match`, by which `cut` is the plain search that tries every position. -/

namespace Stencil

/-- A character outside all matches, or one match with what the matcher said about it. -/
inductive Piece (α : Type) where
  | plain (c : Char)
  | hit (a : α) (text : Text)
  deriving DecidableEq, Repr

/-- What a matcher says about a match at the head of a text, and how many characters it takes.
A match of no characters counts as none. -/
abbrev Matcher (α : Type) := Text → Option (α × Nat)

namespace Piece
variable {α : Type}

def text : Piece α → Text
  | plain c => [c]
  | hit _ t => t

/-- The text of the pieces in a row. -/
def texts (ps : List (Piece α)) : Text := ps.flatMap text

/-- The matched texts, in order. -/
def hits (ps : List (Piece α)) : List Text :=
  ps.filterMap fun
    | plain _ => none
    | hit _ t => some t

/-- The pieces in a row with every hit rewritten. -/
def fill (f : α → Text → Text) (ps : List (Piece α)) : Text :=
  ps.flatMap fun
    | plain c => [c]
    | hit a t => f a t

/-- A half-open range of byte offsets. -/
structure Span where
  first : Nat
  past : Nat
  deriving DecidableEq, Repr

/-- The byte ranges of the hits with what the matcher said, when the first piece begins at `at`. -/
def spansFrom (start : Nat) : List (Piece α) → List (Span × α)
  | [] => []
  | plain c :: ps => spansFrom (start + c.utf8Size) ps
  | hit a t :: ps => (⟨start, start + Text.utf8Size t⟩, a) :: spansFrom (start + Text.utf8Size t) ps

def spans (ps : List (Piece α)) : List (Span × α) := spansFrom 0 ps

end Piece

namespace Text
variable {α : Type}

/-- `cut` after `skip` more characters that belong to the last match. -/
def cutFrom (m : Matcher α) : (skip : Nat) → Text → List (Piece α)
  | _, [] => []
  | skip + 1, _ :: s => cutFrom m skip s
  | 0, c :: s =>
    match m (c :: s) with
    | some (a, n + 1) => .hit a (c :: s.take n) :: cutFrom m n s
    | _ => .plain c :: cutFrom m 0 s

/-- The pieces of a text under a matcher, leftmost match first. -/
def cut (m : Matcher α) (s : Text) : List (Piece α) := cutFrom m 0 s

theorem cutFrom_eq_cut_drop (m : Matcher α) (k : Nat) (s : Text) : cutFrom m k s = cut m (s.drop k) := by
  induction s generalizing k with
  | nil => cases k <;> rfl
  | cons c s ih =>
    cases k with
    | zero => rfl
    | succ k => simpa [cutFrom] using ih k

@[simp] theorem cut_nil (m : Matcher α) : cut m [] = [] := rfl

theorem cut_of_match {m : Matcher α} {c : Char} {s : Text} {a : α} {n : Nat}
    (h : m (c :: s) = some (a, n + 1)) :
    cut m (c :: s) = .hit a (c :: s.take n) :: cut m (s.drop n) := by
  rw [← cutFrom_eq_cut_drop]
  simp [cut, cutFrom, h]

theorem cut_of_no_match {m : Matcher α} {c : Char} {s : Text}
    (h : ∀ a n, m (c :: s) ≠ some (a, n + 1)) : cut m (c :: s) = .plain c :: cut m s := by
  simp only [cut, cutFrom]

theorem texts_cut (m : Matcher α) (s : Text) : Piece.texts (cut m s) = s := by
  suffices ∀ n (s : Text), s.length ≤ n → Piece.texts (cut m s) = s from this _ s (Nat.le_refl _)
  intro n
  induction n with
  | zero => intro s hs; simp [List.length_eq_zero_iff.1 (Nat.le_zero.1 hs), Piece.texts]
  | succ n ih =>
    intro s hs
    cases s with
    | nil => rfl
    | cons c s =>
      have hs' : s.length ≤ n := by simpa using hs
      by_cases h : ∃ a k, m (c :: s) = some (a, k + 1)
      · obtain ⟨a, k, h⟩ := h
        have := ih (s.drop k) (by simp; omega)
        simp only [Piece.texts] at this
        simp [cut_of_match h, Piece.texts, Piece.text, this]
      · have := ih s hs'
        simp only [Piece.texts] at this
        rw [cut_of_no_match (fun a k hk => h ⟨a, k, hk⟩)]
        simp [Piece.texts, Piece.text, this]

/-- Finds one fixed text; the empty text is found nowhere. -/
def literally (pattern : Text) : Matcher Unit :=
  fun s => (strip? pattern s).map fun _ => ((), pattern.length)

/-- Every occurrence of `pattern`, read from left to right without overlap, becomes `by`. -/
def replace (pattern new s : Text) : Text :=
  Piece.fill (fun _ _ => new) (cut (literally pattern) s)

end Text
end Stencil
