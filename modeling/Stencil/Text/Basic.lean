/-! # Text

Documents, keys and values are lists of characters, so that a rule about text is a recursion on the
data; strings stand only where text enters or leaves. `Text.strip?_eq_some_iff` says what taking a
leading text off means, and the byte offsets that answers show are the measure `Text.utf8Size`. -/

namespace Stencil

abbrev Text := List Char

namespace Text

/-- The rest of a text after a given beginning. -/
def strip? : (start s : Text) → Option Text
  | [], s => some s
  | _ :: _, [] => none
  | a :: p, c :: s => if a = c then strip? p s else none

theorem strip?_eq_some_iff {p s r : Text} : strip? p s = some r ↔ s = p ++ r := by
  induction p generalizing s with
  | nil => simp [strip?, eq_comm]
  | cons a p ih =>
    cases s with
    | nil => simp [strip?]
    | cons c s =>
      by_cases h : a = c
      · simp [strip?, h, ih]
      · simp [strip?, h, Ne.symm h]

@[simp] theorem strip?_append (p r : Text) : strip? p (p ++ r) = some r :=
  strip?_eq_some_iff.2 rfl

/-- The front of a text before a given ending. -/
def stripEnd? (ending s : Text) : Option Text :=
  (strip? ending.reverse s.reverse).map List.reverse

theorem stripEnd?_eq_some_iff {p s r : Text} : stripEnd? p s = some r ↔ s = r ++ p := by
  simp only [stripEnd?, Option.map_eq_some_iff, strip?_eq_some_iff]
  constructor
  · rintro ⟨t, ht, rfl⟩
    simpa using congrArg List.reverse ht
  · rintro rfl
    exact ⟨r.reverse, by simp, by simp⟩

def startsWith (start s : Text) : Bool := (strip? start s).isSome

/-- The text after one leading `c`, if there is one. -/
def skipOne (c : Char) : Text → Text
  | [] => []
  | d :: s => if d = c then s else d :: s

def trimStart (p : Char → Bool) (s : Text) : Text := s.dropWhile p

def trimEnd (p : Char → Bool) (s : Text) : Text := (s.reverse.dropWhile p).reverse

def trimBoth (p : Char → Bool) (s : Text) : Text := trimEnd p (trimStart p s)

/-- The text before and after the first `sep`. -/
def splitOnce? (sep : Char) (s : Text) : Option (Text × Text) :=
  match s.dropWhile (· != sep) with
  | [] => none
  | _ :: rest => some (s.takeWhile (· != sep), rest)

/-- The parts with `sep` between neighbours. -/
def join (sep : Text) (parts : List Text) : Text := sep.intercalate parts

def lowerAscii (s : Text) : Text := s.map Char.toLower

def upperAscii (s : Text) : Text := s.map Char.toUpper

/-- Whether a text stands before another in a dictionary of code points, or is equal to it. -/
def precedes : Text → Text → Bool
  | [], _ => true
  | _ :: _, [] => false
  | a :: s, b :: t => if a = b then precedes s t else a.toNat < b.toNat

/-- The value of a hexadecimal digit in either case. -/
def hexDigit? (c : Char) : Option Nat :=
  if c.isDigit then some (c.toNat - '0'.toNat)
  else if 'a' ≤ c ∧ c ≤ 'f' then some (c.toNat - 'a'.toNat + 10)
  else if 'A' ≤ c ∧ c ≤ 'F' then some (c.toNat - 'A'.toNat + 10)
  else none

def utf8Size : Text → Nat
  | [] => 0
  | c :: s => c.utf8Size + utf8Size s

@[simp] theorem utf8Size_nil : utf8Size [] = 0 := rfl

@[simp] theorem utf8Size_cons (c : Char) (s : Text) : utf8Size (c :: s) = c.utf8Size + utf8Size s := rfl

@[simp] theorem utf8Size_append (s t : Text) : utf8Size (s ++ t) = utf8Size s + utf8Size t := by
  induction s with
  | nil => simp
  | cons c s ih => simp [ih, Nat.add_assoc]

end Text
end Stencil
