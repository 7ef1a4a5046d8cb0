import Stencil.Sprintf.Fault
import Stencil.Decimal.Read

/-! # The grammar of format texts

A format text is a row of literal characters and conversions
`%[argument$][flags][width][.precision]specifier`. `Directive.readAll` reads it from left to right, each
part as long as it can be, up to its end or its first fault. -/

namespace Stencil.Sprintf
open Text

/-- How one argument is written. -/
structure Conversion where
  /-- Counted from one; without it the conversion takes the next argument. -/
  argument : Option Nat := none
  /-- Whether the text stands at the left of its field. -/
  left : Bool := false
  /-- Whether numbers that are not negative carry a plus. -/
  plus : Bool := false
  /-- What fills the field. -/
  pad : Char := ' '
  width : Nat := 0
  precision : Option Nat := none
  specifier : Char := 's'
  deriving DecidableEq, Repr

inductive Directive where
  | literal (c : Char)
  | convert (conversion : Conversion)
  deriving DecidableEq, Repr

namespace Conversion

/-- A number counts up to this size, and no further. -/
def maxNumber : Nat := Nat.pow 2 64 - 1

/-- The number at the head of a text, zero without digits, and the text behind it. -/
def number (s : Text) : Nat × Text :=
  let digits := s.takeWhile Char.isDigit
  (min (Decimal.valueOf digits) maxNumber, s.drop digits.length)

/-- Reads an argument number, which a dollar sign ends. -/
def readArgument (c : Conversion) (s : Text) : Except Fault (Conversion × Text) :=
  match s.takeWhile Char.isDigit, number s with
  | _ :: _, (n, '$' :: rest) =>
    if n = 0 then .error .argumentZero else .ok ({ c with argument := some n }, rest)
  | _, _ => .ok (c, s)

/-- Reads flags; a later one wins over an earlier one. -/
def readFlags (c : Conversion) : Text → Conversion × Text
  | '-' :: s => readFlags { c with left := true } s
  | '+' :: s => readFlags { c with plus := true } s
  | ' ' :: s => readFlags { c with pad := ' ' } s
  | '0' :: s => readFlags { c with pad := '0' } s
  | '\'' :: p :: s => readFlags { c with pad := p } s
  | s => (c, s)

def readWidth (c : Conversion) (s : Text) : Except Fault (Conversion × Text) :=
  let (n, rest) := number s
  if maxField < n then .error (.tooWide n) else .ok ({ c with width := n }, rest)

def readPrecision (c : Conversion) : Text → Except Fault (Conversion × Text)
  | '.' :: s =>
    let (n, rest) := number s
    if maxField < n then .error (.tooPrecise n) else .ok ({ c with precision := some n }, rest)
  | s => .ok (c, s)

def readSpecifier (c : Conversion) : Text → Except Fault (Conversion × Text)
  | [] => .error .noSpecifier
  | specifier :: rest => .ok ({ c with specifier }, rest)

/-- Reads a conversion behind its percent sign. -/
def read (s : Text) : Except Fault (Conversion × Text) := do
  let (c, s) ← readArgument {} s
  let (c, s) := readFlags c s
  let (c, s) ← readWidth c s
  let (c, s) ← readPrecision c s
  readSpecifier c s

/-! ### Reading goes forward -/

theorem length_number (s : Text) : (number s).2.length ≤ s.length := by
  simp [number]

theorem length_readArgument {c : Conversion} {s : Text} {r : Conversion × Text}
    (h : readArgument c s = .ok r) : r.2.length ≤ s.length := by
  have := length_number s
  unfold readArgument at h
  split at h
  · split at h <;> simp_all
    subst h
    simp at *
    omega
  · cases h
    exact Nat.le_refl _

theorem length_readFlags (c : Conversion) (s : Text) : (readFlags c s).2.length ≤ s.length := by
  fun_induction readFlags c s <;> simp_all <;> omega

theorem length_readWidth {c : Conversion} {s : Text} {r : Conversion × Text}
    (h : readWidth c s = .ok r) : r.2.length ≤ s.length := by
  have := length_number s
  simp only [readWidth] at h
  split at h <;> simp_all
  subst h
  exact this

theorem length_readPrecision {c : Conversion} {s : Text} {r : Conversion × Text}
    (h : readPrecision c s = .ok r) : r.2.length ≤ s.length := by
  unfold readPrecision at h
  split at h
  · next t =>
    have := length_number t
    dsimp only at h
    split at h <;> simp_all
    subst h
    exact Nat.le_succ_of_le this
  · cases h
    exact Nat.le_refl _

theorem length_readSpecifier {c : Conversion} {s : Text} {r : Conversion × Text}
    (h : readSpecifier c s = .ok r) : r.2.length < s.length := by
  cases s with
  | nil => simp [readSpecifier] at h
  | cons d s =>
    cases h
    exact Nat.lt_succ_self _

theorem length_read {s : Text} {r : Conversion × Text} (h : read s = .ok r) :
    r.2.length < s.length := by
  simp only [read, bind, Except.bind] at h
  repeat' split at h
  all_goals try contradiction
  next c₁ h₁ _ c₃ h₃ _ c₄ h₄ =>
  have := length_readArgument h₁
  have := length_readFlags c₁.1 c₁.2
  have := length_readWidth h₃
  have := length_readPrecision h₄
  have := length_readSpecifier h
  omega

end Conversion

/-- The directives of a format text, and the fault at which reading stops. -/
def Directive.readAll (s : Text) : List Directive × Option Fault :=
  match s with
  | [] => ([], none)
  | '%' :: '%' :: s =>
    let (ds, fault) := Directive.readAll s
    (.literal '%' :: ds, fault)
  | '%' :: s =>
    match h : Conversion.read s with
    | .error fault => ([], some fault)
    | .ok r =>
      have := Conversion.length_read h
      let (ds, fault) := Directive.readAll r.2
      (.convert r.1 :: ds, fault)
  | c :: s =>
    let (ds, fault) := Directive.readAll s
    (.literal c :: ds, fault)
termination_by s.length

end Stencil.Sprintf
