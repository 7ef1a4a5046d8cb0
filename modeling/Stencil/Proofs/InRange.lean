import Stencil.Proofs.Directives
import Stencil.Sprintf.Machine

/-! # Nothing goes out of range

The machine that formats by positions answers as `format` does, for every text that fits into memory: no
sum leaves the words, and no index or slice the text, however long a digit run is (`format_eq`). Each
step is read as a step over the text behind the position (`Agrees`). -/

namespace Stencil.Sprintf.Machine
open Text Conversion

theorem add_eq {a b : Nat} (h : a + b ≤ maxNumber) : add a b = .ok (a + b) := if_pos h

theorem valueOf_eq (digits : Text) : valueOf digits = min (Decimal.valueOf digits) maxNumber := by
  suffices ∀ n, digits.foldl (fun n c => min (min (n * 10) maxNumber + (c.toNat - '0'.toNat)) maxNumber)
      (min n maxNumber) = min (Nat.ofDigitChars 10 digits n) maxNumber from this 0
  induction digits with
  | nil => exact fun _ => rfl
  | cons c digits ih =>
    intro n
    have hstep : min (min (min n maxNumber * 10) maxNumber + (c.toNat - '0'.toNat)) maxNumber =
        min (10 * n + (c.toNat - '0'.toNat)) maxNumber := by omega
    rw [List.foldl_cons, hstep, ih, Nat.ofDigitChars_cons]

variable {s : Text} {i : Nat}

/-- A position in the text, and the text behind it. -/
structure Before (s : Text) (i : Nat) (rest : Text) : Prop where
  le : i ≤ s.length
  drop_eq : s.drop i = rest

namespace Before
variable {c : Char} {rest t u : Text}

theorem length (h : Before s i rest) : i + rest.length = s.length := by
  rw [← h.drop_eq, List.length_drop]
  have := h.le
  omega

theorem head? (h : Before s i rest) : s[i]? = rest.head? := by rw [← h.drop_eq, List.head?_drop]

theorem append (h : Before s i (t ++ u)) : Before s (i + t.length) u := by
  have hlength := h.length
  rw [List.length_append] at hlength
  exact ⟨by omega, by rw [← List.drop_drop, h.drop_eq, List.drop_left]⟩

theorem tail (h : Before s i (c :: rest)) : Before s (i + 1) rest := append (t := [c]) h

theorem lt (h : Before s i (c :: rest)) : i < s.length := h.tail.le

theorem charAt_eq (h : Before s i (c :: rest)) : charAt s i = .ok c := by
  rw [charAt, h.head?]
  rfl

theorem slice_eq (h : Before s i (t ++ u)) : slice s i (i + t.length) = .ok t := by
  rw [slice, if_pos ⟨Nat.le_add_right _ _, h.append.le⟩, h.drop_eq, Nat.add_sub_cancel_left, List.take_left]

theorem countDigits_eq (h : Before s i rest) : countDigits s i = (rest.takeWhile Char.isDigit).length := by
  rw [countDigits, h.drop_eq]

theorem digits (h : Before s i rest) :
    Before s i (rest.takeWhile Char.isDigit ++ rest.dropWhile Char.isDigit) := by
  rwa [List.takeWhile_append_dropWhile]

end Before

/-! ### Steps agree -/

/-- The machine comes to the same fault, or to the same answer and the position in front of the same rest. -/
def Agrees (s : Text) (x : Scan (Conversion × Nat)) (y : Except Fault (Conversion × Text)) : Prop :=
  match y with
  | .error fault => x = .error (.fault fault)
  | .ok (c, rest) => ∃ i, x = .ok (c, i) ∧ Before s i rest

theorem Agrees.bind {x : Scan (Conversion × Nat)} {y : Except Fault (Conversion × Text)}
    {f : Conversion × Nat → Scan (Conversion × Nat)}
    {g : Conversion × Text → Except Fault (Conversion × Text)} (h : Agrees s x y)
    (hnext : ∀ c i rest, Before s i rest → Agrees s (f (c, i)) (g (c, rest))) :
    Agrees s (x >>= f) (y >>= g) := by
  cases y with
  | error fault =>
    obtain rfl := h
    exact rfl
  | ok r =>
    obtain ⟨i, rfl, hi⟩ := h
    exact hnext r.1 i r.2 hi

theorem ok_bind {α β : Type} (a : α) (f : α → Scan β) : (Except.ok a : Scan α) >>= f = f a := rfl

theorem fieldSize_eq (fault : Nat → Fault) (digits : Text) :
    fieldSize fault digits =
      if maxField < min (Decimal.valueOf digits) maxNumber
      then .error (.fault (fault (min (Decimal.valueOf digits) maxNumber)))
      else .ok (min (Decimal.valueOf digits) maxNumber) := by
  rw [fieldSize, valueOf_eq]

section Steps
variable {rest : Text} (hs : s.length + 2 ≤ maxNumber) (h : Before s i rest) (c : Conversion)
include hs h

theorem agrees_argument : Agrees s (argumentAt s c i) (readArgument c rest) := by
  have hdigits := h.digits
  have hlength := h.length
  rw [readArgument, number_eq, argumentAt, h.countDigits_eq]
  generalize rest.takeWhile Char.isDigit = digits at hdigits ⊢
  generalize rest.dropWhile Char.isDigit = after at hdigits ⊢
  have hstop := hdigits.append
  have hrange := hstop.le
  cases digits with
  | nil => exact ⟨i, rfl, h⟩
  | cons d digits =>
    have hne : (d :: digits).length ≠ 0 := Nat.succ_ne_zero _
    rw [if_neg hne, add_eq (by omega), ok_bind, hstop.head?]
    cases after with
    | nil => exact ⟨i, rfl, h⟩
    | cons a after =>
      by_cases ha : a = '$'
      · subst ha
        have hbehind := hstop.tail
        have hle := hbehind.le
        rw [List.head?_cons, if_pos rfl, hdigits.slice_eq, ok_bind, valueOf_eq]
        simp only
        split
        · rfl
        · rw [add_eq (a := (d :: digits).length) (by omega), ok_bind, add_eq (by omega), ok_bind]
          exact ⟨_, rfl, by rwa [← Nat.add_assoc]⟩
      · rw [List.head?_cons, if_neg (fun heq => ha (Option.some.inj heq))]
        split
        · next heq => exact absurd (List.cons.inj (Prod.mk.inj heq).2).1 ha
        · exact ⟨i, rfl, h⟩

theorem agrees_flags : Agrees s (flagsAt s c i) (.ok (readFlags c rest)) := by
  -- one turn over a flag of one or two characters, then the turns behind it
  have turn : ∀ {i : Nat} {r : Conversion × Nat} {c : Conversion}, flagAt s c i = .ok (some r) →
      flagsAt s c i = flagsAt s r.1 r.2 := by
    intro i r c hflag
    rw [flagsAt]
    split <;> simp_all
  fun_induction readFlags c rest generalizing i with
  | case1 c rest ih | case2 c rest ih | case3 c rest ih | case4 c rest ih =>
    have hnext := h.tail
    have hle := hnext.le
    rw [turn (r := (_, i + 1)) (by rw [flagAt, h.head?, List.head?_cons, add_eq (by omega)]; rfl)]
    exact ih hnext
  | case5 c p rest ih =>
    have hquote := h.tail
    have hnext := hquote.tail
    have hle := hnext.le
    rw [turn (r := (_, i + 1 + 1)) (by
      rw [flagAt, h.head?, List.head?_cons, add_eq (by omega)]
      simp only [ok_bind]
      rw [hquote.head?, List.head?_cons, add_eq (by omega)]
      rfl)]
    exact ih hnext
  | case6 c rest hleft hplus hspace hzero hquote =>
    have hnone : flagAt s c i = .ok none := by
      rw [flagAt, h.head?]
      cases rest with
      | nil => rfl
      | cons a rest =>
        rw [List.head?_cons]
        split
        · next heq => cases heq; exact (hleft _ rfl).elim
        · next heq => cases heq; exact (hplus _ rfl).elim
        · next heq => cases heq; exact (hspace _ rfl).elim
        · next heq => cases heq; exact (hzero _ rfl).elim
        · next heq =>
          cases heq
          cases rest with
          | nil =>
            have hend := h.tail
            have hle := hend.le
            rw [add_eq (by omega)]
            simp only [ok_bind]
            rw [hend.head?]
            rfl
          | cons p rest => exact (hquote _ _ rfl).elim
        · rfl
    refine ⟨i, ?_, h⟩
    rw [flagsAt]
    split <;> simp_all

theorem agrees_width : Agrees s (widthAt s c i) (readWidth c rest) := by
  have hdigits := h.digits
  have hle := hdigits.append.le
  rw [widthAt, readWidth, number_eq, h.countDigits_eq, add_eq (by omega), ok_bind, hdigits.slice_eq, ok_bind,
    fieldSize_eq]
  dsimp only
  split
  · rfl
  · exact ⟨_, rfl, hdigits.append⟩

theorem agrees_specifier : Agrees s (specifierAt s c i) (readSpecifier c rest) := by
  rw [specifierAt, h.head?]
  cases rest with
  | nil => rfl
  | cons a rest =>
    have hnext := h.tail
    have hle := hnext.le
    dsimp only [List.head?_cons]
    rw [add_eq (by omega)]
    exact ⟨_, rfl, hnext⟩

theorem agrees_precision : Agrees s (precisionAt s c i) (readPrecision c rest) := by
  rw [precisionAt, h.head?]
  cases rest with
  | nil => exact ⟨i, rfl, h⟩
  | cons a rest =>
    by_cases ha : a = '.'
    · subst ha
      have hstart := h.tail
      have hdigits := hstart.digits
      have hle := hdigits.append.le
      rw [List.head?_cons, if_pos rfl, add_eq (by omega), ok_bind, readPrecision, number_eq, hstart.countDigits_eq]
      dsimp only
      rw [add_eq (by omega), ok_bind, hdigits.slice_eq, ok_bind, fieldSize_eq]
      split
      · rfl
      · rw [ok_bind, add_eq (by omega), ok_bind, add_eq (by omega), ok_bind]
        exact ⟨_, rfl, by rw [Nat.add_comm _ 1, ← Nat.add_assoc]; exact hdigits.append⟩
    · rw [List.head?_cons, if_neg (fun heq => ha (Option.some.inj heq)), readPrecision]
      · exact ⟨i, rfl, h⟩
      · exact fun t heq => ha (List.cons.inj heq).1

omit c in
theorem agrees_conversion : Agrees s (conversionAt s i) (Conversion.read rest) := by
  refine (agrees_argument hs h {}).bind fun c i rest h => ?_
  obtain ⟨j, hflags, h⟩ := agrees_flags hs h c
  dsimp only
  rw [hflags, ok_bind]
  exact (agrees_width hs h _).bind fun c i rest h =>
    (agrees_precision hs h c).bind fun c i rest h => agrees_specifier hs h c

end Steps

variable {τ : Type} {shown : τ → Text} {args : List (Value τ)}

/-- What comes of directives and of the fault behind them. -/
def outcome (shown : τ → Text) (args : List (Value τ)) (next : Nat) :
    List Directive × Option Fault → Except Fault Text
  | (directives, fault) => match fill shown args next directives, fault with
    | .ok out, none => .ok out
    | .ok _, some fault => .error fault
    | .error fault, _ => .error fault

theorem format_eq_outcome (shown : τ → Text) (text : Text) (args : List (Value τ)) :
    Sprintf.format shown text args = (outcome shown args 0 (Directive.readAll text)).mapError (.badFormat text) := by
  rw [Sprintf.format]
  obtain ⟨directives, fault⟩ := Directive.readAll text
  dsimp only [outcome]
  cases fill shown args 0 directives <;> cases fault <;> rfl

theorem outcome_literal (next : Nat) (c : Char) (directives : List Directive) (fault : Option Fault) :
    outcome shown args next (.literal c :: directives, fault) =
      (outcome shown args next (directives, fault)).map (c :: ·) := by
  simp only [outcome, fill]
  cases fill shown args next directives <;> cases fault <;> rfl

theorem outcome_convert (next : Nat) (c : Conversion) (directives : List Directive) (fault : Option Fault) :
    outcome shown args next (.convert c :: directives, fault) =
      match args[c.argument.elim next (· - 1)]? with
      | none => .error (.missingArgument (c.argument.elim next (· - 1) + 1) args.length)
      | some v => match c.write shown v with
        | .error fault => .error fault
        | .ok text =>
          (outcome shown args (if c.argument.isSome then next else next + 1) (directives, fault)).map
            (text ++ ·) := by
  simp only [outcome, fill]
  cases args[c.argument.elim next (· - 1)]? with
  | none => rfl
  | some v =>
    dsimp only
    cases c.write shown v with
    | error fault => rfl
    | ok text =>
      cases fill shown args (if c.argument.isSome then next else next + 1) directives <;> cases fault <;> rfl

/-! ### One turn -/

/-- An argument that is read has a number that fits into a word, counted from one. -/
theorem argument_of_read {r : Conversion × Text} (h : Conversion.read s = .ok r) :
    ∀ n ∈ r.1.argument, 1 ≤ n ∧ n ≤ maxNumber := by
  obtain ⟨w, -, hbounds, hcapped⟩ := exists_reads_of_read h
  rintro n hn
  rw [← hcapped] at hn
  obtain ⟨m, hm, rfl⟩ := Option.map_eq_some_iff.1 hn
  obtain ⟨a, ha, rfl⟩ := Option.map_eq_some_iff.1 hm
  have hone := hbounds.argument a ha
  have hword : 1 ≤ maxNumber := by decide
  exact ⟨le_min hone hword, min_le_right _ _⟩

theorem takeArgument_eq {c : Conversion} {next : Nat} (hargument : ∀ n ∈ c.argument, 1 ≤ n)
    (hnext : next + 1 ≤ maxNumber) : takeArgument c next =
      .ok (c.argument.elim next (· - 1), if c.argument.isSome then next else next + 1) := by
  rw [takeArgument]
  cases ha : c.argument with
  | none =>
    dsimp only
    rw [add_eq hnext, ok_bind, sub, if_pos (Nat.le_add_left 1 next)]
    rfl
  | some n =>
    dsimp only
    rw [sub, if_pos (hargument n ha)]
    rfl

theorem run_of_step {st next : State} (hin : st.position < s.length) (hstep : step shown s args st = .ok next) :
    run shown s args st = run shown s args next := by
  rw [run, if_pos hin]
  split <;> simp_all

theorem run_of_halt {st : State} {e : Halt} (hin : st.position < s.length)
    (hstep : step shown s args st = .error e) : run shown s args st = .error e := by
  rw [run, if_pos hin]
  split <;> simp_all

section Turns
variable {rest out : Text} {next : Nat} (hs : s.length + 2 ≤ maxNumber)
include hs

theorem step_literal {c : Char} (h : Before s i (c :: rest)) (hc : c ≠ '%') :
    step shown s args ⟨out, next, i⟩ = .ok ⟨out ++ [c], next, i + 1⟩ := by
  have hin := h.lt
  rw [step, h.charAt_eq, ok_bind, if_pos hc, add_eq (by dsimp only; omega)]
  rfl

theorem step_percent (h : Before s i ('%' :: '%' :: rest)) :
    step shown s args ⟨out, next, i⟩ = .ok ⟨out ++ ['%'], next, i + 2⟩ := by
  have hin := h.tail.lt
  rw [step, h.charAt_eq, ok_bind, if_neg (not_not_intro rfl), add_eq (by dsimp only; omega), ok_bind, h.tail.head?,
    List.head?_cons, if_pos rfl, add_eq (by dsimp only; omega)]
  rfl

theorem step_conversion (h : Before s i ('%' :: rest)) (hrest : rest.head? ≠ some '%') :
    step shown s args ⟨out, next, i⟩ = (do
      let (conversion, stop) ← conversionAt s (i + 1)
      let (index, next) ← takeArgument conversion next
      match args[index]? with
      | none => throw (.fault (.missingArgument (← add index 1) args.length))
      | some v => match conversion.write shown v with
        | .error fault => throw (.fault fault)
        | .ok text => return ⟨out ++ text, next, stop⟩) := by
  have hin := h.lt
  have hadd : add i 1 = .ok (i + 1) := add_eq (by omega)
  rw [step, h.charAt_eq, ok_bind, if_neg (not_not_intro rfl)]
  simp only [hadd, ok_bind]
  exact (if_neg (by rwa [h.tail.head?])).trans rfl

theorem step_fault {fault : Fault} (h : Before s i ('%' :: rest)) (hrest : rest.head? ≠ some '%')
    (hread : Conversion.read rest = .error fault) :
    step shown s args ⟨out, next, i⟩ = .error (.fault fault) := by
  have hagrees := agrees_conversion hs h.tail
  rw [hread] at hagrees
  rw [step_conversion hs h hrest, hagrees]
  rfl

variable (out) in
theorem step_convert {r : Conversion × Text} (h : Before s i ('%' :: rest)) (hrest : rest.head? ≠ some '%')
    (hread : Conversion.read rest = .ok r) (hnext : next ≤ i) :
    ∃ stop, i < stop ∧ Before s stop r.2 ∧ step shown s args ⟨out, next, i⟩ =
      match args[r.1.argument.elim next (· - 1)]? with
      | none => .error (.fault (.missingArgument (r.1.argument.elim next (· - 1) + 1) args.length))
      | some v => match r.1.write shown v with
        | .error fault => .error (.fault fault)
        | .ok text => .ok ⟨out ++ text, if r.1.argument.isSome then next else next + 1, stop⟩ := by
  have hin := h.lt
  have hargument := argument_of_read hread
  have hagrees := agrees_conversion hs h.tail
  rw [hread] at hagrees
  obtain ⟨stop, hstop, hbefore⟩ := hagrees
  refine ⟨stop, Nat.lt_of_succ_lt (conversionAt_forward hstop), hbefore, ?_⟩
  have hplace : r.1.argument.elim next (· - 1) + 1 ≤ maxNumber := by
    cases ha : r.1.argument with
    | none => dsimp only [Option.elim]; omega
    | some n =>
      have := hargument n ha
      dsimp only [Option.elim]
      omega
  rw [step_conversion hs h hrest, hstop, ok_bind]
  dsimp only
  rw [takeArgument_eq (fun n hn => (hargument n hn).1) (by omega), ok_bind]
  dsimp only
  cases args[r.1.argument.elim next (· - 1)]? with
  | none =>
    dsimp only
    rw [add_eq hplace, ok_bind]
    rfl
  | some v =>
    dsimp only
    cases r.1.write shown v <;> rfl

end Turns

/-- From a position on, the machine writes what the directives behind it ask for. -/
theorem run_eq (hs : s.length + 2 ≤ maxNumber) {rest out : Text} {next : Nat} (h : Before s i rest)
    (hnext : next ≤ i) : run shown s args ⟨out, next, i⟩ =
      ((outcome shown args next (Directive.readAll rest)).map (out ++ ·)).mapError .fault := by
  have no_double {rest : Text} (hrest : ∀ t, rest = '%' :: t → False) : rest.head? ≠ some '%' := by
    intro hhead
    obtain ⟨t, ht⟩ := List.head?_eq_some_iff.1 hhead
    exact hrest t ht
  fun_induction Directive.readAll rest generalizing i out next with
  | case1 =>
    have hend : i = s.length := h.length
    rw [run, if_neg (by dsimp only; omega)]
    simp [outcome, fill, Except.map, Except.mapError]
  | case2 rest directives fault hread ih =>
    rw [run_of_step h.lt (step_percent hs h), ih h.tail.tail (by omega), hread, outcome_literal]
    cases outcome shown args next (directives, fault) <;> simp [Except.map, Except.mapError]
  | case3 rest hdouble fault hread =>
    rw [run_of_halt h.lt (step_fault hs h (no_double hdouble) hread)]
    rfl
  | case4 rest hdouble r hread hshorter directives fault hall ih =>
    obtain ⟨stop, hstop, hbefore, hstep⟩ := step_convert out hs h (no_double hdouble) hread hnext
    rw [outcome_convert]
    cases hv : args[r.1.argument.elim next (· - 1)]? with
    | none =>
      rw [hv] at hstep
      rw [run_of_halt h.lt hstep]
      rfl
    | some v =>
      rw [hv] at hstep
      cases hwrite : r.1.write shown v with
      | error fault =>
        dsimp only at hstep ⊢
        rw [hwrite] at hstep
        rw [run_of_halt h.lt hstep, hwrite]
        rfl
      | ok text =>
        dsimp only at hstep ⊢
        rw [hwrite] at hstep
        rw [run_of_step h.lt hstep, ih hbefore (by split <;> omega), hall, hwrite]
        dsimp only
        generalize outcome shown args _ (directives, fault) = behind
        cases behind <;> simp [Except.map, Except.mapError]
  | case5 c rest hdouble hpercent directives fault hread ih =>
    rw [run_of_step h.lt (step_literal hs h hpercent), ih h.tail (by omega), hread, outcome_literal]
    cases outcome shown args next (directives, fault) <;> simp [Except.map, Except.mapError]

/-- Without a panic, the machine answers as `format` does. -/
theorem format_eq (shown : τ → Text) (args : List (Value τ)) (hs : s.length + 2 ≤ maxNumber) :
    ∃ answer : Except Fault Text, Machine.format shown s args = answer.mapError .fault ∧
      Sprintf.format shown s args = answer.mapError (.badFormat s) := by
  refine ⟨outcome shown args 0 (Directive.readAll s), ?_, format_eq_outcome shown s args⟩
  have hstart : Before s 0 s := ⟨Nat.zero_le _, rfl⟩
  rw [Machine.format, run_eq hs hstart (Nat.le_refl 0)]
  cases outcome shown args 0 (Directive.readAll s) <;> rfl

end Stencil.Sprintf.Machine
