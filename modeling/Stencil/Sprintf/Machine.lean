import Stencil.Sprintf.Format

/-! # Formatting by positions

`format` as a machine runs it, over positions in the format text and 64-bit words. A sum or difference
that leaves the words, and an index or slice that leaves the text, is a `panic`; the numbers of digit
runs saturate. Every turn of a loop moves the position on, which is why the loops end. -/

namespace Stencil.Sprintf.Machine
open Conversion (maxNumber)

inductive Halt where
  /-- An operation had no result. -/
  | panic
  | fault (fault : Fault)
  deriving DecidableEq, Repr

abbrev Scan (α : Type) := Except Halt α

/-- The length up to which memory has room for a text or a list. -/
def maxLength : Nat := Nat.pow 2 63 - 1

def add (a b : Nat) : Scan Nat := if a + b ≤ maxNumber then .ok (a + b) else .error .panic

def sub (a b : Nat) : Scan Nat := if b ≤ a then .ok (a - b) else .error .panic

def charAt (s : Text) (i : Nat) : Scan Char :=
  match s[i]? with
  | some c => .ok c
  | none => .error .panic

def slice (s : Text) (i j : Nat) : Scan Text :=
  if i ≤ j ∧ j ≤ s.length then .ok ((s.drop i).take (j - i)) else .error .panic

def countDigits (s : Text) (i : Nat) : Nat := ((s.drop i).takeWhile Char.isDigit).length

/-- The number of a digit run; one that is too large becomes the largest word. -/
def valueOf (digits : Text) : Nat :=
  digits.foldl (fun n c => min (min (n * 10) maxNumber + (c.toNat - '0'.toNat)) maxNumber) 0

theorem bind_add_eq_ok {α : Type} {a b : Nat} {f : Nat → Scan α} {r : α} (h : add a b >>= f = .ok r) :
    f (a + b) = .ok r := by
  rw [add] at h
  split at h
  · exact h
  · cases h

def argumentAt (s : Text) (c : Conversion) (i : Nat) : Scan (Conversion × Nat) :=
  let digits := countDigits s i
  if digits = 0 then .ok (c, i) else do
    let stop ← add i digits
    if s[stop]? = some '$' then
      let n := valueOf (← slice s i stop)
      if n = 0 then .error (.fault .argumentZero)
      else return ({ c with argument := some n }, ← add i (← add digits 1))
    else return (c, i)

/-- One turn over a flag; nothing where none stands. -/
def flagAt (s : Text) (c : Conversion) (i : Nat) : Scan (Option (Conversion × Nat)) :=
  match s[i]? with
  | some '-' => do return some ({ c with left := true }, ← add i 1)
  | some '+' => do return some ({ c with plus := true }, ← add i 1)
  | some ' ' => do return some ({ c with pad := ' ' }, ← add i 1)
  | some '0' => do return some ({ c with pad := '0' }, ← add i 1)
  | some '\'' => do
    match s[← add i 1]? with
    | none => return none
    | some p => return some ({ c with pad := p }, ← add (← add i 1) 1)
  | _ => .ok none

theorem flagAt_forward {s : Text} {c : Conversion} {i : Nat} {r : Conversion × Nat}
    (h : flagAt s c i = .ok (some r)) : i < s.length ∧ i < r.2 := by
  rw [flagAt] at h
  split at h
  case h_6 => cases h
  case h_5 hc =>
    refine ⟨(List.getElem?_eq_some_iff.1 hc).1, ?_⟩
    replace h := bind_add_eq_ok h
    split at h
    · cases h
    · cases bind_add_eq_ok (bind_add_eq_ok h)
      exact Nat.lt_add_right 1 (Nat.lt_succ_self i)
  all_goals
    next hc =>
    cases bind_add_eq_ok h
    exact ⟨(List.getElem?_eq_some_iff.1 hc).1, Nat.lt_succ_self i⟩

def flagsAt (s : Text) (c : Conversion) (i : Nat) : Scan (Conversion × Nat) :=
  match h : flagAt s c i with
  | .error e => .error e
  | .ok none => .ok (c, i)
  | .ok (some r) =>
    have := flagAt_forward h
    flagsAt s r.1 r.2
termination_by s.length - i

def fieldSize (fault : Nat → Fault) (digits : Text) : Scan Nat :=
  let n := valueOf digits
  if maxField < n then .error (.fault (fault n)) else .ok n

def widthAt (s : Text) (c : Conversion) (i : Nat) : Scan (Conversion × Nat) := do
  let stop ← add i (countDigits s i)
  return ({ c with width := ← fieldSize .tooWide (← slice s i stop) }, stop)

def precisionAt (s : Text) (c : Conversion) (i : Nat) : Scan (Conversion × Nat) :=
  if s[i]? = some '.' then do
    let start ← add i 1
    let digits := countDigits s start
    let n ← fieldSize .tooPrecise (← slice s start (← add start digits))
    return ({ c with precision := some n }, ← add i (← add digits 1))
  else .ok (c, i)

def specifierAt (s : Text) (c : Conversion) (i : Nat) : Scan (Conversion × Nat) :=
  match s[i]? with
  | some specifier => do return ({ c with specifier }, ← add i 1)
  | none => .error (.fault .noSpecifier)

/-- The conversion at a position behind its percent sign, and the position behind it. -/
def conversionAt (s : Text) (i : Nat) : Scan (Conversion × Nat) := do
  let (c, i) ← argumentAt s {} i
  let (c, i) ← flagsAt s c i
  let (c, i) ← widthAt s c i
  let (c, i) ← precisionAt s c i
  specifierAt s c i

/-! ### Every step goes forward -/

theorem argumentAt_forward {s : Text} {c : Conversion} {i : Nat} {r : Conversion × Nat}
    (h : argumentAt s c i = .ok r) : i ≤ r.2 := by
  rw [argumentAt] at h
  split at h
  · cases h
    exact Nat.le_refl i
  · replace h := bind_add_eq_ok h
    split at h
    · obtain ⟨digits, -, h⟩ := bind_eq_ok h
      dsimp only at h
      split at h
      · cases h
      · cases bind_add_eq_ok (bind_add_eq_ok h)
        exact Nat.le_add_right i _
    · cases h
      exact Nat.le_refl i

theorem flagsAt_forward {s : Text} {c : Conversion} {i : Nat} {r : Conversion × Nat}
    (h : flagsAt s c i = .ok r) : i ≤ r.2 := by
  fun_induction flagsAt s c i with
  | case1 c i e he => cases h
  | case2 c i hnone =>
    cases h
    exact Nat.le_refl i
  | case3 c i next hnext hforward ih => exact Nat.le_trans (Nat.le_of_lt hforward.2) (ih h)

theorem widthAt_forward {s : Text} {c : Conversion} {i : Nat} {r : Conversion × Nat}
    (h : widthAt s c i = .ok r) : i ≤ r.2 := by
  rw [widthAt] at h
  obtain ⟨digits, -, h⟩ := bind_eq_ok (bind_add_eq_ok h)
  obtain ⟨n, -, h⟩ := bind_eq_ok h
  cases h
  exact Nat.le_add_right i _

theorem precisionAt_forward {s : Text} {c : Conversion} {i : Nat} {r : Conversion × Nat}
    (h : precisionAt s c i = .ok r) : i ≤ r.2 := by
  rw [precisionAt] at h
  split at h
  · obtain ⟨digits, -, h⟩ := bind_eq_ok (bind_add_eq_ok (bind_add_eq_ok h))
    obtain ⟨n, -, h⟩ := bind_eq_ok h
    cases bind_add_eq_ok (bind_add_eq_ok h)
    exact Nat.le_add_right i _
  · cases h
    exact Nat.le_refl i

theorem specifierAt_forward {s : Text} {c : Conversion} {i : Nat} {r : Conversion × Nat}
    (h : specifierAt s c i = .ok r) : i < r.2 := by
  rw [specifierAt] at h
  split at h
  · cases bind_add_eq_ok h
    exact Nat.lt_succ_self i
  · cases h

theorem conversionAt_forward {s : Text} {i : Nat} {r : Conversion × Nat} (h : conversionAt s i = .ok r) :
    i < r.2 := by
  rw [conversionAt] at h
  obtain ⟨r₁, h₁, h⟩ := bind_eq_ok h
  obtain ⟨r₂, h₂, h⟩ := bind_eq_ok h
  obtain ⟨r₃, h₃, h⟩ := bind_eq_ok h
  obtain ⟨r₄, h₄, h⟩ := bind_eq_ok h
  calc i ≤ r₁.2 := argumentAt_forward h₁
    _ ≤ r₂.2 := flagsAt_forward h₂
    _ ≤ r₃.2 := widthAt_forward h₃
    _ ≤ r₄.2 := precisionAt_forward h₄
    _ < r.2 := specifierAt_forward h

/-- The text so far, the number of arguments taken by conversions that name none, and the position. -/
structure State where
  out : Text := []
  next : Nat := 0
  position : Nat := 0

variable {τ : Type}

/-- The place of the argument of a conversion, and the arguments taken behind it. -/
def takeArgument (c : Conversion) (next : Nat) : Scan (Nat × Nat) :=
  match c.argument with
  | some n => do return (← sub n 1, next)
  | none => do
    let next ← add next 1
    return (← sub next 1, next)

/-- One turn over a character, a double percent sign or a conversion. -/
def step (shown : τ → Text) (s : Text) (args : List (Value τ)) (st : State) : Scan State := do
  let c ← charAt s st.position
  if c ≠ '%' then return ⟨st.out ++ [c], st.next, ← add st.position 1⟩
  else if s[← add st.position 1]? = some '%' then return ⟨st.out ++ ['%'], st.next, ← add st.position 2⟩
  else
    let (conversion, stop) ← conversionAt s (← add st.position 1)
    let (index, next) ← takeArgument conversion st.next
    match args[index]? with
    | none => throw (.fault (.missingArgument (← add index 1) args.length))
    | some v => match conversion.write shown v with
      | .error fault => throw (.fault fault)
      | .ok text => return ⟨st.out ++ text, next, stop⟩

theorem step_forward {shown : τ → Text} {s : Text} {args : List (Value τ)} {st st' : State}
    (h : step shown s args st = .ok st') : st.position < st'.position := by
  rw [step] at h
  obtain ⟨c, -, h⟩ := bind_eq_ok h
  split at h
  · cases bind_add_eq_ok h
    exact Nat.lt_succ_self _
  replace h := bind_add_eq_ok h
  split at h
  · cases bind_add_eq_ok h
    exact Nat.lt_add_of_pos_right (by decide)
  obtain ⟨⟨conversion, stop⟩, hconversion, h⟩ := bind_eq_ok (bind_add_eq_ok h)
  obtain ⟨⟨index, next⟩, -, h⟩ := bind_eq_ok h
  dsimp only at h
  split at h
  · obtain ⟨needed, -, h⟩ := bind_eq_ok h
    cases h
  · split at h
    · cases h
    · cases h
      exact Nat.lt_of_succ_lt (conversionAt_forward hconversion)

def run (shown : τ → Text) (s : Text) (args : List (Value τ)) (st : State) : Scan Text :=
  if st.position < s.length then
    match h : step shown s args st with
    | .error e => .error e
    | .ok next =>
      have := step_forward h
      run shown s args next
  else .ok st.out
termination_by s.length - st.position

def format (shown : τ → Text) (s : Text) (args : List (Value τ)) : Scan Text := run shown s args {}

end Stencil.Sprintf.Machine
