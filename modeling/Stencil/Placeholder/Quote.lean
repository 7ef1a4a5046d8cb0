import Stencil.Placeholder.Find

/-! # Quoted runs inside a placeholder

A quote that no backslash precedes opens a run, which ends at the next quote of its kind on the same
line; a backslash inside takes the next character with it. What stands in a run is data: blanks,
pipes and question marks there have no meaning. `texts_quotePieces` says that nothing is lost. -/

namespace Stencil.Placeholder
open Text

/-- How many characters a run takes after its opening `quote`, its closing quote included. -/
def runLength? (quote : Char) : Text → Option Nat
  | [] => none
  | c :: s =>
    if c = '\n' then none
    else if c = '\\' then
      match s with
      | [] => none
      | d :: s => if d = '\n' then none else (runLength? quote s).map (· + 2)
    else if c = quote then some 1
    else (runLength? quote s).map (· + 1)

/-- `quotePieces` behind a character, which is a backslash if `escaped`, and after `skip` more
characters of the last run. -/
def quotePiecesFrom : (escaped : Bool) → (skip : Nat) → Text → List (Piece Unit)
  | _, _, [] => []
  | _, skip + 1, c :: s => quotePiecesFrom (c == '\\') skip s
  | escaped, 0, c :: s =>
    match if isQuote c && !escaped then runLength? c s else none with
    | some n => .hit () (c :: s.take n) :: quotePiecesFrom false n s
    | none => .plain c :: quotePiecesFrom (c == '\\') 0 s

/-- The quoted runs of a text, and the characters outside them. -/
def quotePieces (s : Text) : List (Piece Unit) := quotePiecesFrom false 0 s

theorem texts_quotePiecesFrom (escaped : Bool) (skip : Nat) (s : Text) :
    Piece.texts (quotePiecesFrom escaped skip s) = s.drop skip := by
  fun_induction quotePiecesFrom escaped skip s with
  | case1 => simp [Piece.texts]
  | case2 _ _ _ _ ih => simpa using ih
  | case3 _ c s n _ ih => simp_all [Piece.texts, Piece.text]
  | case4 _ c s _ ih => simp_all [Piece.texts, Piece.text]

theorem texts_quotePieces (s : Text) : Piece.texts (quotePieces s) = s :=
  texts_quotePiecesFrom false 0 s

/-- The parts between the `sep`s that stand outside quoted runs. -/
def splitOutside (sep : Char) : List (Piece Unit) → List Text
  | [] => [[]]
  | p :: ps =>
    match p, splitOutside sep ps with
    | .plain c, parts => if c = sep then [] :: parts else
      match parts with
      | [] => [[c]]
      | part :: parts => (c :: part) :: parts
    | .hit _ t, [] => [t]
    | .hit _ t, part :: parts => (t ++ part) :: parts

/-- What stands before and after the first `??` outside quoted runs that something follows. -/
def splitDefault : List (Piece Unit) → Text × Option Text
  | [] => ([], none)
  | .plain '?' :: .plain '?' :: p :: ps => ([], some (Piece.texts (p :: ps)))
  | p :: ps =>
    let (before, after) := splitDefault ps
    (p.text ++ before, after)

/-- A text without the pair of equal quotes around it, if it is one line. -/
def stripQuotes (s : Text) : Text :=
  let within (quote : Char) : Option Text := do stripEnd? [quote] (← strip? [quote] s)
  if '\n' ∈ s then s else (within '\'' <|> within '"').getD s

end Stencil.Placeholder
