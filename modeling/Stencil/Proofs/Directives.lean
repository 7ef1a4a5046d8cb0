import Mathlib.Tactic.MkIffOfInductiveProp
import Stencil.Proofs.Chars
import Stencil.Sprintf.Format

/-! # How format texts are read

The items of a format text as they are written, and the rule that gives a text its items: from left to
right, each part of a conversion the longest that stands there (`Reads`). The reader of a part takes the
longest one, so `Directive.readAll` comes to the end of a text exactly if the text has items within the
bounds, and answers with their directives (`exists_reads`, `Reads.inBounds`, `Reads.readAll_eq`). -/

namespace Stencil.Sprintf
open Text Conversion

/-- A run of digits, which can be empty. -/
structure Digits where
  text : Text
  isDigit : ∀ c ∈ text, c.isDigit = true

def Digits.value (d : Digits) : Nat := Decimal.valueOf d.text

/-- The number of an argument, in front of its dollar sign. -/
structure ArgumentNumber extends Digits where
  ne_nil : text ≠ []

inductive Flag where
  | left
  | plus
  | space
  | zero
  /-- A quote and the character that fills the field. -/
  | pad (c : Char)

def Flag.text : Flag → Text
  | left => ['-']
  | plus => ['+']
  | space => [' ']
  | zero => ['0']
  | pad c => ['\'', c]

def Flag.set (c : Conversion) : Flag → Conversion
  | left => { c with left := true }
  | plus => { c with plus := true }
  | space => { c with pad := ' ' }
  | zero => { c with pad := '0' }
  | pad p => { c with pad := p }

/-- A conversion as it is written behind its percent sign. -/
structure Written where
  argument : Option ArgumentNumber
  flags : List Flag
  width : Digits
  precision : Option Digits
  specifier : Char

def argumentText : Option ArgumentNumber → Text
  | none => []
  | some n => n.text ++ ['$']

def flagsText (flags : List Flag) : Text := flags.flatMap Flag.text

def precisionText : Option Digits → Text
  | none => []
  | some d => '.' :: d.text

/-! ### The longest part -/

/-- Of the parts at the head of `s`, `x` is the longest, and `rest` stands behind it. -/
structure IsLongest {α : Type} (text : α → Text) (x : α) (s rest : Text) : Prop where
  eq : s = text x ++ rest
  le : ∀ y t, s = text y ++ t → (text y).length ≤ (text x).length

theorem exists_longest {α : Type} (text : α → Text) {x : α} (hx : text x = []) (s : Text) :
    ∃ y rest, IsLongest text y s rest := by
  suffices ∀ n x rest, rest.length ≤ n → s = text x ++ rest → ∃ y rest, IsLongest text y s rest from
    this s.length x s (Nat.le_refl _) (by rw [hx, List.nil_append])
  -- while a longer part stands there, less is left behind it
  intro n
  induction n with
  | zero =>
    intro x rest hrest hs
    refine ⟨x, rest, hs, fun y t hy => ?_⟩
    have hlength := congrArg List.length (hs.symm.trans hy)
    simp only [List.length_append] at hlength
    omega
  | succ n ih =>
    intro x rest hrest hs
    by_cases hlonger : ∃ y t, s = text y ++ t ∧ (text x).length < (text y).length
    · obtain ⟨y, t, hy, hlt⟩ := hlonger
      have hlength := congrArg List.length (hs.symm.trans hy)
      simp only [List.length_append] at hlength
      exact ih y t (by omega) hy
    · exact ⟨x, rest, hs, fun y t hy => Nat.le_of_not_lt fun hlt => hlonger ⟨y, t, hy, hlt⟩⟩

theorem number_eq (s : Text) :
    number s = (min (Decimal.valueOf (s.takeWhile Char.isDigit)) maxNumber, s.dropWhile Char.isDigit) := by
  rw [number, drop_length_takeWhile]

theorem number_run (d : Digits) {rest : Text} (hrest : ∀ c, rest.head? = some c → c.isDigit = false) :
    number (d.text ++ rest) = (min d.value maxNumber, rest) := by
  rw [number_eq, takeWhile_run d.isDigit hrest, dropWhile_run d.isDigit hrest, Digits.value]

variable {s rest : Text} {c : Conversion}

theorem size_eq_ok_iff {d : Digits} (fault : Nat → Fault) (set : Nat → Conversion) {r : Conversion × Text} :
    (if maxField < min d.value maxNumber then Except.error (fault (min d.value maxNumber))
      else Except.ok (set (min d.value maxNumber), rest)) = Except.ok r ↔
      d.value ≤ maxField ∧ (set d.value, rest) = r := by
  have hfield : maxField < maxNumber := by decide
  by_cases hle : d.value ≤ maxField
  · have hmin : min d.value maxNumber = d.value := by omega
    rw [hmin, if_neg (Nat.not_lt.2 hle), Except.ok.injEq]
    exact (and_iff_right hle).symm
  · rw [if_pos (by omega)]
    exact ⟨nofun, fun h => absurd h.1 hle⟩

namespace IsLongest

theorem head?_not_digit {d : Digits} (h : IsLongest Digits.text d s rest) :
    ∀ c, rest.head? = some c → c.isDigit = false := by
  intro c hc
  obtain ⟨t, rfl⟩ := List.head?_eq_some_iff.1 hc
  refine Bool.eq_false_iff.2 fun hdigit => ?_
  have hlonger : (d.text ++ [c]).length ≤ d.text.length :=
    h.le ⟨d.text ++ [c], by simpa [or_imp, forall_and] using ⟨d.isDigit, hdigit⟩⟩ t (by simp [h.eq])
  rw [List.length_append] at hlonger
  exact Nat.not_succ_le_self _ hlonger

theorem number_eq {d : Digits} (h : IsLongest Digits.text d s rest) :
    number s = (min d.value maxNumber, rest) := by
  rw [h.eq, number_run d h.head?_not_digit]

theorem readArgument_eq_ok_iff {a : Option ArgumentNumber} (h : IsLongest argumentText a s rest)
    {r : Conversion × Text} :
    readArgument {} s = .ok r ↔
      (∀ n ∈ a, 1 ≤ n.value) ∧ ({ argument := a.map (min ·.value maxNumber) }, rest) = r := by
  cases a with
  | none =>
    obtain rfl : s = rest := h.eq
    have hread : readArgument {} s = .ok ({}, s) := by
      rw [readArgument]
      split
      · next d digits n after hdigits hnumber =>
        -- an argument number would be longer than nothing
        rw [Sprintf.number_eq] at hnumber
        have hs : s = (d :: digits ++ ['$']) ++ after := by
          rw [← hdigits, List.append_assoc, List.singleton_append, ← (Prod.mk.inj hnumber).2,
            List.takeWhile_append_dropWhile]
        have hrun : ∀ c ∈ d :: digits, c.isDigit = true := fun c hc => List.mem_takeWhile_imp (hdigits ▸ hc)
        have hlonger := h.le (some ⟨⟨d :: digits, hrun⟩, List.cons_ne_nil _ _⟩) after hs
        simp [argumentText] at hlonger
      · rfl
    rw [hread]
    simp
  | some n =>
    have hs : s = n.text ++ '$' :: rest := by rw [h.eq, argumentText, List.append_assoc]; rfl
    have hend : ∀ c, ('$' :: rest).head? = some c → c.isDigit = false := by
      rintro c ⟨⟩
      rfl
    have hzero : min n.value maxNumber = 0 ↔ n.value = 0 := by
      have : 0 < maxNumber := by decide
      omega
    obtain ⟨d, digits, hne⟩ := List.exists_cons_of_ne_nil n.ne_nil
    rw [readArgument, hs, number_run n.toDigits hend, takeWhile_run n.isDigit hend, hne]
    by_cases hn : n.value = 0
    · simp [hn]
    · simp [hzero, hn, Nat.one_le_iff_ne_zero]

theorem readFlags_eq {flags : List Flag} (h : IsLongest flagsText flags s rest) :
    readFlags c s = (flags.foldl Flag.set c, rest) := by
  have text_cons (flag : Flag) (flags : List Flag) : flagsText (flag :: flags) = flag.text ++ flagsText flags := rfl
  induction flags generalizing s c with
  | nil =>
    obtain rfl : s = rest := h.eq
    -- one flag would be longer than none
    have hnone : ∀ flag t, s ≠ Flag.text flag ++ t := by
      intro flag t hs
      have hlonger := h.le [flag] t (by rw [text_cons, hs]; simp [flagsText])
      cases flag <;> simp [flagsText, Flag.text] at hlonger
    unfold readFlags
    split
    · exact (hnone .left _ rfl).elim
    · exact (hnone .plus _ rfl).elim
    · exact (hnone .space _ rfl).elim
    · exact (hnone .zero _ rfl).elim
    · exact (hnone (.pad _) _ rfl).elim
    · rfl
  | cons flag flags ih =>
    have hs : s = flag.text ++ (flagsText flags ++ rest) := by rw [h.eq, text_cons, List.append_assoc]
    have htail : IsLongest flagsText flags (flagsText flags ++ rest) rest := by
      refine ⟨rfl, fun y t hy => ?_⟩
      have hle := h.le (flag :: y) t (by rw [hs, hy, text_cons, List.append_assoc])
      simp only [text_cons, List.length_append] at hle
      omega
    rw [hs, List.foldl_cons, ← ih htail]
    cases flag <;> rw [Flag.text] <;> rfl

theorem readWidth_eq_ok_iff {d : Digits} (h : IsLongest Digits.text d s rest) {r : Conversion × Text} :
    readWidth c s = .ok r ↔ d.value ≤ maxField ∧ ({ c with width := d.value }, rest) = r := by
  rw [readWidth, h.number_eq]
  exact size_eq_ok_iff .tooWide fun n => { c with width := n }

theorem readPrecision_eq_ok_iff {p : Option Digits} (h : IsLongest precisionText p s rest) (hc : c.precision = none)
    {r : Conversion × Text} :
    readPrecision c s = .ok r ↔
      (∀ d ∈ p, d.value ≤ maxField) ∧ ({ c with precision := p.map Digits.value }, rest) = r := by
  cases p with
  | none =>
    obtain rfl : s = rest := h.eq
    have hread : readPrecision c s = .ok (c, s) := by
      rw [readPrecision]
      -- a point alone would be longer than nothing
      rintro t rfl
      have hlonger := h.le (some ⟨[], by simp⟩) t rfl
      simp [precisionText] at hlonger
    rw [hread, Option.map_none, ← hc]
    simp
  | some d =>
    have hs : s = '.' :: (d.text ++ rest) := h.eq
    have hdigits : IsLongest Digits.text d (d.text ++ rest) rest := by
      refine ⟨rfl, fun y t hy => ?_⟩
      have hle := h.le (some y) t (by rw [hs, hy]; rfl)
      simpa [precisionText] using hle
    rw [hs, readPrecision, hdigits.number_eq]
    simpa using size_eq_ok_iff .tooPrecise fun n => { c with precision := some n }

end IsLongest

namespace Written

/-- What the parts ask for. -/
def conversion (w : Written) : Conversion :=
  { w.flags.foldl Flag.set {} with
    argument := w.argument.map (·.value)
    width := w.width.value
    precision := w.precision.map Digits.value
    specifier := w.specifier }

/-- The parts in front of the specifier stand at the head of `s`, each as long as it can be. -/
def Leads (w : Written) (s rest : Text) : Prop :=
  ∃ s₁ s₂ s₃, IsLongest argumentText w.argument s s₁ ∧ IsLongest flagsText w.flags s₁ s₂ ∧
    IsLongest Digits.text w.width s₂ s₃ ∧ IsLongest precisionText w.precision s₃ rest

/-- The conversion stands at the head of `s`. -/
def Reads (w : Written) (s rest : Text) : Prop := w.Leads s (w.specifier :: rest)

/-- Arguments count from one, and the sizes of the field are allowed. -/
@[mk_iff]
structure InBounds (w : Written) : Prop where
  argument : ∀ n ∈ w.argument, 1 ≤ n.value
  width : w.width.value ≤ maxField
  precision : ∀ d ∈ w.precision, d.value ≤ maxField

end Written

theorem exists_leads (s : Text) : ∃ (w : Written) (rest : Text), w.Leads s rest := by
  obtain ⟨argument, s₁, hargument⟩ := exists_longest argumentText (x := none) rfl s
  obtain ⟨flags, s₂, hflags⟩ := exists_longest flagsText (x := []) rfl s₁
  obtain ⟨width, s₃, hwidth⟩ := exists_longest Digits.text (x := ⟨[], by simp⟩) rfl s₂
  obtain ⟨precision, rest, hprecision⟩ := exists_longest precisionText (x := none) rfl s₃
  exact ⟨⟨argument, flags, width, precision, 's'⟩, rest, s₁, s₂, s₃, hargument, hflags, hwidth, hprecision⟩

/-- An argument number that is too large for a word names the largest one. -/
def Conversion.capped (c : Conversion) : Conversion := { c with argument := c.argument.map (min · maxNumber) }

theorem foldl_set_argument (flags : List Flag) (c : Conversion) (a : Option Nat) :
    flags.foldl Flag.set { c with argument := a } = { flags.foldl Flag.set c with argument := a } := by
  induction flags generalizing c with
  | nil => rfl
  | cons flag flags ih =>
    rw [List.foldl_cons, List.foldl_cons, ← ih]
    cases flag <;> rfl

theorem precision_foldl_set (flags : List Flag) (c : Conversion) :
    (flags.foldl Flag.set c).precision = c.precision := by
  induction flags generalizing c with
  | nil => rfl
  | cons flag flags ih =>
    rw [List.foldl_cons, ih]
    cases flag <;> rfl

variable {w : Written}

theorem Written.Leads.read_eq_ok_iff (h : w.Leads s rest) {r : Conversion × Text} :
    Conversion.read s = .ok r ↔ w.InBounds ∧ readSpecifier w.conversion.capped rest = .ok r := by
  obtain ⟨s₁, s₂, s₃, hargument, hflags, hwidth, hprecision⟩ := h
  have hnone (a : Option Nat) (n : Nat) :
      ({ w.flags.foldl Flag.set { argument := a } with width := n } : Conversion).precision = none :=
    precision_foldl_set w.flags { argument := a }
  simp only [Conversion.read, bind_eq_ok_iff, hargument.readArgument_eq_ok_iff, and_assoc, exists_and_left,
    exists_eq_left', hflags.readFlags_eq, hwidth.readWidth_eq_ok_iff,
    hprecision.readPrecision_eq_ok_iff (hnone _ _), Written.inBounds_iff]
  rw [foldl_set_argument w.flags {}, Written.conversion, capped, Option.map_map]
  cases rest with
  | nil => exact Iff.rfl
  | cons d rest => exact Iff.rfl

theorem Written.Reads.read_eq_ok_iff (h : w.Reads s rest) {r : Conversion × Text} :
    Conversion.read s = .ok r ↔ w.InBounds ∧ (w.conversion.capped, rest) = r := by
  rw [Leads.read_eq_ok_iff h, readSpecifier, Except.ok.injEq]
  rfl

theorem exists_reads_of_read {r : Conversion × Text} (h : Conversion.read s = .ok r) :
    ∃ w : Written, w.Reads s r.2 ∧ w.InBounds ∧ w.conversion.capped = r.1 := by
  obtain ⟨w, rest, hleads⟩ := exists_leads s
  obtain ⟨hbounds, hspecifier⟩ := hleads.read_eq_ok_iff.1 h
  cases rest with
  | nil => cases hspecifier
  | cons d rest =>
    cases hspecifier
    exact ⟨{ w with specifier := d }, hleads, ⟨hbounds.argument, hbounds.width, hbounds.precision⟩, rfl⟩

/-! ### A whole format text -/

/-- What a format text consists of. -/
inductive Item where
  | literal (c : Char)
  /-- A double percent sign. -/
  | percent
  | conversion (w : Written)

/-- The items of a text, read from left to right. -/
inductive Reads : Text → List Item → Prop where
  | nil : Reads [] []
  | literal {c : Char} {s : Text} {items : List Item} (hc : c ≠ '%') (h : Reads s items) :
      Reads (c :: s) (.literal c :: items)
  | percent {s : Text} {items : List Item} (h : Reads s items) : Reads ('%' :: '%' :: s) (.percent :: items)
  | conversion {w : Written} {s rest : Text} {items : List Item} (hs : s.head? ≠ some '%') (hw : w.Reads s rest)
      (h : Reads rest items) : Reads ('%' :: s) (.conversion w :: items)

namespace Item

def InBounds : Item → Prop
  | conversion w => w.InBounds
  | _ => True

def directive : Item → Directive
  | literal c => .literal c
  | percent => .literal '%'
  | conversion w => .convert w.conversion.capped

end Item

open Directive (readAll)

theorem readAll_literal {c : Char} (hc : c ≠ '%') (s : Text) :
    readAll (c :: s) = (.literal c :: (readAll s).1, (readAll s).2) := by
  rw [readAll]
  · exact fun t h _ => hc h
  · exact fun h => hc h

theorem readAll_percent (s : Text) :
    readAll ('%' :: '%' :: s) = (.literal '%' :: (readAll s).1, (readAll s).2) := by
  rw [readAll]

theorem readAll_convert {r : Conversion × Text} (hs : s.head? ≠ some '%') (h : Conversion.read s = .ok r) :
    readAll ('%' :: s) = (.convert r.1 :: (readAll r.2).1, (readAll r.2).2) := by
  rw [readAll]
  · split <;> simp_all
  · rintro t rfl
    exact hs rfl

theorem readAll_fault {fault : Fault} (hs : s.head? ≠ some '%') (h : Conversion.read s = .error fault) :
    readAll ('%' :: s) = ([], some fault) := by
  rw [readAll]
  · split <;> simp_all
  · rintro t rfl
    exact hs rfl

variable {items : List Item}

theorem Reads.readAll_eq (h : Reads s items) (hbounds : ∀ item ∈ items, item.InBounds) :
    readAll s = (items.map Item.directive, none) := by
  induction h with
  | nil => rw [readAll]; rfl
  | literal hc h ih =>
    rw [readAll_literal hc, ih (List.forall_mem_cons.1 hbounds).2]
    rfl
  | percent h ih =>
    rw [readAll_percent, ih (List.forall_mem_cons.1 hbounds).2]
    rfl
  | conversion hs hw h ih =>
    obtain ⟨hw', hbounds⟩ := List.forall_mem_cons.1 hbounds
    rw [readAll_convert hs (hw.read_eq_ok_iff.2 ⟨hw', rfl⟩), ih hbounds]
    rfl

theorem Reads.inBounds (h : Reads s items) (hend : (readAll s).2 = none) : ∀ item ∈ items, item.InBounds := by
  induction h with
  | nil => exact List.forall_mem_nil _
  | literal hc h ih =>
    rw [readAll_literal hc] at hend
    exact List.forall_mem_cons.2 ⟨trivial, ih hend⟩
  | percent h ih =>
    rw [readAll_percent] at hend
    exact List.forall_mem_cons.2 ⟨trivial, ih hend⟩
  | @conversion w s rest items hs hw h ih =>
    cases hread : Conversion.read s with
    | error fault =>
      rw [readAll_fault hs hread] at hend
      cases hend
    | ok r =>
      obtain ⟨hw', rfl⟩ := hw.read_eq_ok_iff.1 hread
      rw [readAll_convert hs hread] at hend
      exact List.forall_mem_cons.2 ⟨hw', ih hend⟩

theorem exists_reads (hend : (readAll s).2 = none) : ∃ items, Reads s items := by
  fun_induction readAll s with
  | case1 => exact ⟨[], .nil⟩
  | case2 s directives fault hread ih =>
    rw [hread] at ih
    obtain ⟨items, h⟩ := ih hend
    exact ⟨.percent :: items, h.percent⟩
  | case3 s hs fault hread => cases hend
  | case4 s hs r hread hshorter directives fault hrest ih =>
    rw [hrest] at ih
    obtain ⟨items, h⟩ := ih hend
    obtain ⟨w, hw, -⟩ := exists_reads_of_read hread
    refine ⟨.conversion w :: items, .conversion (fun hhead => ?_) hw h⟩
    obtain ⟨t, rfl⟩ := List.head?_eq_some_iff.1 hhead
    exact hs t rfl
  | case5 c s hdouble hpercent directives fault hread ih =>
    rw [hread] at ih
    obtain ⟨items, h⟩ := ih hend
    exact ⟨.literal c :: items, h.literal hpercent⟩

end Stencil.Sprintf
